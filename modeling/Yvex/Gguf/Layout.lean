import Mathlib.Data.Nat.Bitwise
import Yvex.Foundation.Wire

namespace Yvex.Gguf

open List Option Yvex.Except

/-! # The layout of a GGUF file

A file holds its directory and then the payload of every tensor, each part padded with zeros to
the alignment. The validator walks over the directory that the reader accepted and reads nothing
but padding. -/

/-! ## What the reader accepts -/

structure QtypeGeometry where
  blockSize : Nat
  bytesPerBlock : Nat

class QtypeTable where
  geometryFind : Nat → Option QtypeGeometry

/-- The total bytes of `yvex_gguf_qtype_tensor_storage`. -/
def qtypeTensorStorage [QtypeTable] (qtype : Nat) (dims : List Nat) : Option Nat := do
  let geometry ← QtypeTable.geometryFind qtype
  ensure (!dims.isEmpty && decide (dims.length ≤ 4) && dims.all (· != 0))
  let rowWidth := dims.headD 0
  ensure (rowWidth % geometry.blockSize == 0)
  let rowBytes ← u64Mul (rowWidth / geometry.blockSize) geometry.bytesPerBlock
  let rowCount ← dims.tail.foldlM u64Mul 1
  let _ ← u64Mul rowWidth rowCount
  u64Mul rowBytes rowCount

structure TensorRow where
  ggmlType : Nat
  dims : List Nat
  relativeOffset : Nat

structure TensorInfo extends TensorRow where
  storageBytes : Nat
  absoluteOffset : Nat
  absoluteEndOffset : Nat

/-- A file whose directory was read. The reader does not read behind the end of a file. -/
structure GgufFile where
  bytes : Bytes
  /-- `general.alignment`, which has to be a `uint32`. -/
  alignmentValue : Option UInt32
  rows : List TensorRow
  directoryEnd : Nat
  directoryEnd_le : directoryEnd ≤ bytes.length
  small : bytes.length ≤ u64Max

def GgufFile.alignment (file : GgufFile) : Nat := (file.alignmentValue.getD 32).toNat

def alignOffset (offset alignment : Nat) : Option Nat := do
  ensure (alignment != 0)
  u64Add offset (if offset % alignment = 0 then 0 else alignment - offset % alignment)

/-- What `parse_tensors` derives for a row. -/
def parseTensor [QtypeTable] (alignment tensorDataOffset : Nat) (row : TensorRow) :
    Option TensorInfo := do
  let storageBytes ← qtypeTensorStorage row.ggmlType row.dims
  ensure (row.relativeOffset % alignment == 0)
  let absoluteOffset ← u64Add tensorDataOffset row.relativeOffset
  let absoluteEndOffset ← u64Add absoluteOffset storageBytes
  return ⟨row, storageBytes, absoluteOffset, absoluteEndOffset⟩

structure GgufView where
  tensorDataOffset : Nat
  tensors : List TensorInfo

/-- The end of `yvex_gguf_open_ex`, behind the bytes of the directory. -/
def GgufFile.view [QtypeTable] (file : GgufFile) : Option GgufView := do
  let tensorDataOffset ← alignOffset file.directoryEnd file.alignment
  ensure (file.rows.isEmpty || decide (tensorDataOffset ≤ file.bytes.length))
  let tensors ← file.rows.mapM (parseTensor file.alignment tensorDataOffset)
  return ⟨tensorDataOffset, tensors⟩

/-! ## The validator -/

def alignUpPowerOfTwo (value alignment : Nat) : Option Nat := do
  ensure (alignment != 0 && alignment &&& (alignment - 1) == 0)
  let sum ← u64Add value (alignment - 1)
  return sum - (sum &&& (alignment - 1))

/-- The counters of `yvex_gguf_layout_result` and its cursor. The offsets and counts that were read
are kept beside `padding_bytes_read`. -/
structure Layout where
  rawTensorBytes : Nat
  interTensorPaddingBytes : Nat
  finalTensorPaddingBytes : Nat
  expected : Nat
  previousStart : Nat
  previousRawEnd : Nat
  reads : List (Nat × Nat)

/-- `read_zero_padding`, which reads a byte at least in every round. -/
def readZeroPadding (file : Bytes) (nonzero : String) :
    Nat → Nat → Nat → List (Nat × Nat) → Except Rejection (List (Nat × Nat))
  | 0, _, _, reads => .ok reads
  | rounds + 1, offset, remaining, reads =>
    if remaining = 0 then .ok reads
    else do
      let take := min remaining 4096
      require (decide (offset + take ≤ file.length)) .format
        "layout-io-failure: required GGUF padding could not be read"
      require (((file.drop offset).take take).all (· == 0)) .format nonzero
      readZeroPadding file nonzero rounds (offset + take) (remaining - take)
        (reads ++ [(offset, take)])

def directoryPaddingNonzero : String :=
  "directory-padding-nonzero: GGUF directory-to-data padding contains a nonzero byte"

def tensorPaddingNonzero : String :=
  "tensor-padding-nonzero: GGUF tensor padding contains a nonzero byte"

def displaced (tensor : TensorInfo) (rawEnd : Nat) (layout : Layout) : String :=
  if layout.expected < tensor.relativeOffset then
    "unexpected-layout-gap: tensor offset leaves a gap after the previous padded interval"
  else if tensor.relativeOffset = layout.previousStart then
    "duplicate-tensor-start: two directory entries declare the same tensor start"
  else if tensor.relativeOffset < layout.previousStart then
    "tensor-offset-reversed: tensor offset reverses directory order"
  else if tensor.relativeOffset < layout.previousRawEnd then
    if rawEnd ≤ layout.previousRawEnd then
      "complete-tensor-overlap: tensor interval is contained in the previous tensor payload"
    else "partial-tensor-overlap: tensor interval partially overlaps the previous tensor payload"
  else "padded-tensor-overlap: tensor starts inside required padding"

def interPadding (index count padding : Nat) (layout : Layout) : Except Rejection Nat :=
  if index + 1 < count then
    orReject (u64Add layout.interTensorPaddingBytes padding) .format
      "layout-aggregate-overflow: aggregate inter-tensor padding overflows"
  else .ok layout.interTensorPaddingBytes

def layoutValidateTensor [QtypeTable] (file : GgufFile) (tensorDataOffset : Nat) (index count : Nat)
    (tensor : TensorInfo) (layout : Layout) : Except Rejection Layout := do
  let storage ← orReject (qtypeTensorStorage tensor.ggmlType tensor.dims) .format
    "tensor-storage-refused: tensor qtype storage is refused"
  require (tensor.storageBytes == storage) .format
    "tensor-storage-refused: parsed tensor storage differs from canonical qtype geometry"
  let rawEnd ← orReject (u64Add tensor.relativeOffset storage) .format
    "tensor-raw-end-overflow: tensor relative raw end overflows"
  let paddedEnd ← orReject (alignUpPowerOfTwo rawEnd file.alignment) .format
    "tensor-padded-end-overflow: tensor padded end overflows"
  require (decide (index = 0 → tensor.relativeOffset = 0)) .format
    "first-offset-not-zero: the first tensor must begin at relative offset zero"
  require (decide (0 < index → tensor.relativeOffset = layout.expected)) .format
    (displaced tensor rawEnd layout)
  let absolute := "layout-aggregate-overflow: absolute tensor layout arithmetic overflows"
  let rawAbsolute ← orReject (u64Add tensorDataOffset tensor.relativeOffset) .format absolute
  let rawAbsoluteEnd ← orReject (u64Add rawAbsolute storage) .format absolute
  let paddedAbsolute ← orReject (u64Add tensorDataOffset paddedEnd) .format absolute
  require (tensor.absoluteOffset == rawAbsolute && tensor.absoluteEndOffset == rawAbsoluteEnd)
    .format "tensor-range-mismatch: parsed tensor absolute range differs from canonical layout"
  require (decide (tensor.absoluteEndOffset ≤ file.bytes.length)) .format
    "tensor-payload-truncated: tensor payload interval exceeds the opened file"
  require (decide (paddedAbsolute ≤ file.bytes.length)) .format
    "layout-padding-truncated: required tensor padding exceeds the opened file"
  let rawTensorBytes ← orReject (u64Add layout.rawTensorBytes storage) .format
    "layout-aggregate-overflow: aggregate raw tensor bytes overflow"
  let padding := paddedEnd - rawEnd
  let interTensorPaddingBytes ← interPadding index count padding layout
  let reads ← readZeroPadding file.bytes tensorPaddingNonzero padding
    tensor.absoluteEndOffset padding layout.reads
  return {
    rawTensorBytes
    interTensorPaddingBytes
    finalTensorPaddingBytes := if index + 1 < count then layout.finalTensorPaddingBytes else padding
    expected := paddedEnd
    previousStart := tensor.relativeOffset
    previousRawEnd := rawEnd
    reads }

def layoutValidateTensors [QtypeTable] (file : GgufFile) (tensorDataOffset count : Nat) :
    Nat → List TensorInfo → Layout → Except Rejection Layout
  | _, [], layout => .ok layout
  | index, tensor :: others, layout => do
    let layout ← layoutValidateTensor file tensorDataOffset index count tensor layout
    layoutValidateTensors file tensorDataOffset count (index + 1) others layout

/-- `yvex_gguf_layout_validate` on a file that stays as it was read, with `total_padding_bytes`. -/
def layoutValidate [QtypeTable] (file : GgufFile) (gguf : GgufView) :
    Except Rejection (Layout × Nat) := do
  require (file.alignment != 0) .format
    "invalid-alignment-value: general.alignment must be nonzero"
  require (file.alignment &&& (file.alignment - 1) == 0) .format
    "alignment-not-power-of-two: general.alignment must be a power of two"
  let tensorDataOffset ← orReject (alignUpPowerOfTwo file.directoryEnd file.alignment) .format
    "alignment-overflow: directory-to-data alignment overflows"
  require (tensorDataOffset == gguf.tensorDataOffset) .format
    "parsed-view-file-mismatch: parsed tensor-data offset is not the canonical aligned directory end"
  let padding := tensorDataOffset - file.directoryEnd
  require (decide (tensorDataOffset ≤ file.bytes.length)) .format
    "layout-padding-truncated: directory-to-data padding is truncated"
  let reads ← readZeroPadding file.bytes directoryPaddingNonzero padding file.directoryEnd padding []
  let layout ← layoutValidateTensors file tensorDataOffset gguf.tensors.length 0 gguf.tensors
    ⟨0, 0, 0, 0, 0, 0, reads⟩
  let aggregate := "layout-aggregate-overflow: aggregate GGUF layout span overflows"
  let total ← orReject (u64Add padding layout.interTensorPaddingBytes) .format aggregate
  let total ← orReject (u64Add total layout.finalTensorPaddingBytes) .format aggregate
  let requiredFileEnd ← orReject (u64Add tensorDataOffset layout.expected) .format aggregate
  require (decide (requiredFileEnd ≤ file.bytes.length)) .format
    "layout-padding-truncated: GGUF file ends before the required padded data span"
  require (file.bytes.length - requiredFileEnd == 0) .format
    "noncanonical-trailing-bytes: bytes after the canonical padded data span are not admitted"
  return (layout, total)

/-! ## Multiples of the alignment -/

def nextMultiple (alignment value : Nat) : Nat := (value + (alignment - 1)) / alignment * alignment

variable {alignment result : Nat}

theorem nextMultiple_eq (positive : alignment ≠ 0) : nextMultiple alignment value =
    value + if value % alignment = 0 then 0 else alignment - value % alignment := by
  have split := Nat.div_add_mod value alignment
  have less := Nat.mod_lt value (Nat.pos_of_ne_zero positive)
  generalize value / alignment = quotient at split
  generalize value % alignment = remainder at split less
  have quotients : nextMultiple alignment value =
      (quotient + (remainder + (alignment - 1)) / alignment) * alignment := by
    rw [nextMultiple, ← split, Nat.add_assoc, Nat.mul_add_div (Nat.pos_of_ne_zero positive)]
  rw [quotients, Nat.add_mul, mul_comm quotient]
  split_ifs with zero
  · rw [Nat.div_eq_of_lt (by omega)]
    omega
  · rw [Nat.div_eq_of_lt_le (k := 1) (by omega) (by omega)]
    omega

theorem alignOffset_eq_some (positive : alignment ≠ 0) : alignOffset value alignment = some result ↔
      nextMultiple alignment value = result ∧ result ≤ u64Max := by
  rw [alignOffset, nextMultiple_eq positive, ← u64Add_eq_some]
  simp [ensure, positive]

theorem le_nextMultiple (positive : alignment ≠ 0) : value ≤ nextMultiple alignment value := by
  rw [nextMultiple_eq positive]
  exact Nat.le_add_right _ _

variable {exponent : Nat}

theorem sum_le_iff (power : alignment = 2 ^ exponent) (small : exponent ≤ 64) :
    value + (alignment - 1) ≤ u64Max ↔ nextMultiple alignment value ≤ u64Max := by
  have positive : 0 < alignment := power ▸ Nat.two_pow_pos exponent
  have above := @le_nextMultiple alignment value positive.ne'
  constructor
  · exact (Nat.div_mul_le_self _ _).trans
  intro fits
  have range : 2 ^ 64 = 2 ^ (64 - exponent) * alignment := by
    rw [power, ← Nat.pow_add, Nat.sub_add_cancel small]
  rw [nextMultiple] at fits above
  generalize (value + (alignment - 1)) / alignment = quotient at fits above
  have less : quotient < 2 ^ (64 - exponent) := by
    apply Nat.lt_of_mul_lt_mul_right (a := alignment)
    rw [← range]
    exact lt_of_le_of_lt fits (by decide)
  have next := Nat.mul_le_mul_right alignment (Nat.succ_le_of_lt less)
  rw [Nat.succ_mul] at next
  rw [u64Max]
  omega

theorem alignUpPowerOfTwo_eq_some (power : alignment = 2 ^ exponent) (small : exponent ≤ 64) :
    alignUpPowerOfTwo value alignment = some result ↔
      nextMultiple alignment value = result ∧ result ≤ u64Max := by
  have positive : alignment ≠ 0 := (power ▸ Nat.two_pow_pos exponent).ne'
  have clear : alignment &&& (alignment - 1) = 0 :=
    (Nat.and_sub_one_eq_zero_iff_isPowerOfTwo positive).mpr ⟨exponent, power⟩
  have masked : ∀ sum, sum - (sum &&& (alignment - 1)) = sum / alignment * alignment := by
    intro sum
    rw [power, Nat.and_two_pow_sub_one_eq_mod, Nat.div_mul_self_eq_mod_sub_self]
  simp only [alignUpPowerOfTwo, clear, masked, bind_eq_some,
    ensure_eq_some, u64Add_eq_some, pure_eq_some]
  constructor
  · rintro ⟨-, -, sum, ⟨rfl, fits⟩, rfl⟩
    exact ⟨rfl, (sum_le_iff power small).mp fits⟩
  · rintro ⟨rfl, fits⟩
    exact ⟨(), by simp [positive], _, ⟨rfl, (sum_le_iff power small).mpr fits⟩, rfl⟩

/-! ## Padding -/

def Zeros (file : Bytes) (offset count : Nat) : Prop :=
  ∀ byte ∈ (file.drop offset).take count, byte = 0

theorem zeros_add : Zeros file offset (first + second) ↔
      Zeros file offset first ∧ Zeros file (offset + first) second := by
  rw [Zeros, take_add, drop_drop, forall_mem_append]
  rfl

theorem readZeroPadding_spec (rounds : Nat)
    {offset remaining : Nat} (reads : List (Nat × Nat)) (enough : remaining ≤ rounds)
    (inside : offset + remaining ≤ file.length) :
    ∃ read, (∀ last, readZeroPadding file nonzero rounds offset remaining reads = .ok last ↔
        Zeros file offset remaining ∧ last = reads ++ read) ∧
      ∀ part ∈ read, offset ≤ part.1 ∧ part.1 + part.2 ≤ offset + remaining := by
  induction rounds generalizing offset remaining reads with
  | zero =>
    cases Nat.le_zero.mp enough
    exact ⟨[], fun last => by simp [readZeroPadding, Zeros, eq_comm], by simp⟩
  | succ rounds induction => ?_
  rw [readZeroPadding]
  split
  · rename_i none
    subst none
    exact ⟨[], fun last => by simp [Zeros, eq_comm], by simp⟩
  rename_i some
  have part : min remaining 4096 + (remaining - min remaining 4096) = remaining := by omega
  generalize take : min remaining 4096 = first at part
  obtain ⟨read, same, within⟩ := @induction (offset + first) (remaining - first)
    (reads ++ [(offset, first)]) (by omega) (by omega)
  refine ⟨(offset, first) :: read, fun last => ?_,
    forall_mem_cons.mpr ⟨⟨le_rfl, by omega⟩, fun part member => ?_⟩⟩
  · have zeros : Zeros file offset remaining ↔
        Zeros file offset first ∧ Zeros file (offset + first) (remaining - first) := by
      rw [← zeros_add, part]
    have here : ((file.drop offset).take first).all (· == 0) = true ↔
        Zeros file offset first := by simp [Zeros]
    have fits : offset + first ≤ file.length := by omega
    simp only [bind_eq_ok, require_eq_ok, here, same, zeros]
    simp [fits, and_assoc]
  · have bounds := within part member
    omega

/-! ## Canonical tilings -/

def Tiled (alignment : Nat) : Nat → List TensorInfo → Bytes → Prop
  | _, [], rest => rest = []
  | position, tensor :: others, rest =>
    tensor.relativeOffset = position ∧
      let padded := nextMultiple alignment (position + tensor.storageBytes)
      ∃ payload behind, payload.length = tensor.storageBytes ∧
        rest = payload ++ List.replicate (padded - (position + tensor.storageBytes)) 0 ++ behind ∧
        Tiled alignment padded others behind

/-- A file of its directory, zeros up to the next multiple of the alignment, and its tensors. -/
def Canonical (file : GgufFile) (gguf : GgufView) : Prop :=
  let padded := nextMultiple file.alignment file.directoryEnd
  ∃ directory behind, directory.length = file.directoryEnd ∧
    file.bytes = directory ++ List.replicate (padded - file.directoryEnd) 0 ++ behind ∧
    Tiled file.alignment 0 gguf.tensors behind

theorem split_iff {legal : Bytes → Prop} : (∃ payload behind, payload.length = size ∧
      rest = payload ++ List.replicate padding 0 ++ behind ∧ legal behind) ↔
      size + padding ≤ rest.length ∧ Zeros rest size padding ∧
        legal (rest.drop (size + padding)) := by
  constructor
  · rintro ⟨payload, behind, rfl, rfl, held⟩
    refine ⟨by simp, ?_, ?_⟩
    · rw [Zeros, append_assoc, drop_left, take_left' length_replicate]
      exact fun byte member => eq_of_mem_replicate member
    · rwa [drop_left' (by simp)]
  rintro ⟨inside, zeros, held⟩
  refine ⟨rest.take size, _, length_take_of_le (by omega), ?_, held⟩
  have padded : (rest.drop size).take padding = List.replicate padding 0 :=
    eq_replicate_iff.mpr ⟨length_take_of_le (by rw [length_drop]; omega), zeros⟩
  rw [← padded, ← take_add, take_append_drop]

/-! ## One tensor -/

structure Apart (offset : Nat) (tensors : List TensorInfo) (reads : List (Nat × Nat)) : Prop where
  behind : ∀ tensor ∈ tensors, offset ≤ tensor.absoluteOffset
  ordered : tensors.Pairwise fun left right => left.absoluteEndOffset ≤ right.absoluteOffset
  later : ∀ read ∈ reads, offset ≤ read.1
  unread : ∀ read ∈ reads, ∀ tensor ∈ tensors,
    read.1 + read.2 ≤ tensor.absoluteOffset ∨ tensor.absoluteEndOffset ≤ read.1

theorem Apart.cons {first reads : List (Nat × Nat)}
    (apart : Apart padded tensors reads) (ends : tensor.absoluteOffset ≤ tensor.absoluteEndOffset)
    (inside : tensor.absoluteEndOffset ≤ padded)
    (between : ∀ part ∈ first, tensor.absoluteEndOffset ≤ part.1 ∧ part.1 + part.2 ≤ padded) :
    Apart tensor.absoluteOffset (tensor :: tensors) (first ++ reads) := by
  refine ⟨forall_mem_cons.mpr ⟨le_rfl, fun other member => ?_⟩,
    pairwise_cons.mpr ⟨fun other member => inside.trans (apart.behind other member), apart.ordered⟩,
    forall_mem_append.mpr ⟨fun read member => ends.trans (between read member).1,
      fun read member => ends.trans (inside.trans (apart.later read member))⟩,
    forall_mem_append.mpr ⟨fun read member => ?_, fun read member => ?_⟩⟩
  · exact ends.trans (inside.trans (apart.behind other member))
  · grind [cases Apart]
  · grind [cases Apart]

section
variable [QtypeTable]

structure TensorInfo.Accepted (tensorDataOffset : Nat) (tensor : TensorInfo) : Prop where
  storage : qtypeTensorStorage tensor.ggmlType tensor.dims = some tensor.storageBytes
  absoluteOffset : tensorDataOffset + tensor.relativeOffset = tensor.absoluteOffset
  absoluteEndOffset : tensor.absoluteOffset + tensor.storageBytes = tensor.absoluteEndOffset
  fits : tensor.absoluteEndOffset ≤ u64Max

variable {tensorDataOffset : Nat}

theorem parseTensor_accepted (parsed : parseTensor alignment tensorDataOffset row = some tensor) :
    tensor.Accepted tensorDataOffset := by
  simp only [parseTensor, bind_eq_some, u64Add_eq_some, pure_eq_some] at parsed
  obtain ⟨storageBytes, storage, _, -, _, ⟨rfl, _⟩, _, ⟨rfl, fits⟩, rfl⟩ := parsed
  exact ⟨storage, rfl, rfl, fits⟩

theorem mapM_accepted {rows : List TensorRow}
    (parsed : rows.mapM (parseTensor alignment tensorDataOffset) = some tensors) :
    ∀ tensor ∈ tensors, tensor.Accepted tensorDataOffset := by
  induction rows generalizing tensors with
  | nil =>
    cases parsed
    simp
  | cons row rows induction => ?_
  simp only [mapM_cons, bind_eq_some, pure_eq_some] at parsed
  obtain ⟨tensor, first, others, rest, rfl⟩ := parsed
  exact forall_mem_cons.mpr ⟨parseTensor_accepted first, induction rest⟩

def Layout.advance (layout : Layout) (last : Bool) (storage padded : Nat)
    (reads : List (Nat × Nat)) : Layout :=
  let padding := padded - (layout.expected + storage)
  { rawTensorBytes := layout.rawTensorBytes + storage
    interTensorPaddingBytes := layout.interTensorPaddingBytes + if last then 0 else padding
    finalTensorPaddingBytes := if last then padding else layout.finalTensorPaddingBytes
    expected := padded
    previousStart := layout.expected
    previousRawEnd := layout.expected + storage
    reads }

variable {file : GgufFile} {exponent tensorDataOffset index count : Nat} {tensor : TensorInfo}
  {layout next : Layout}

theorem layoutValidateTensor_eq_ok (power : file.alignment = 2 ^ exponent) (small : exponent ≤ 64)
    (accepted : tensor.Accepted tensorDataOffset) (start : index = 0 → layout.expected = 0)
    (sums : layout.rawTensorBytes + layout.interTensorPaddingBytes = layout.expected)
    {padded padding : Nat}
    (ends : nextMultiple file.alignment (layout.expected + tensor.storageBytes) = padded)
    (pads : padded - (layout.expected + tensor.storageBytes) = padding) :
    layoutValidateTensor file tensorDataOffset index count tensor layout = .ok next ↔
      tensor.relativeOffset = layout.expected ∧ tensorDataOffset + padded ≤ file.bytes.length ∧
      ∃ reads, readZeroPadding file.bytes tensorPaddingNonzero padding tensor.absoluteEndOffset
          padding layout.reads = .ok reads ∧
        layout.advance (decide (count ≤ index + 1)) tensor.storageBytes padded reads = next := by
  have positive : file.alignment ≠ 0 := (power ▸ Nat.two_pow_pos exponent).ne'
  have above := @le_nextMultiple file.alignment (layout.expected + tensor.storageBytes) positive
  have first := accepted.absoluteOffset
  have last := accepted.absoluteEndOffset
  have limit := file.small
  have inter : ∀ padding sum, interPadding index count padding layout = .ok sum ↔
      layout.interTensorPaddingBytes + (if index + 1 < count then padding else 0) = sum ∧
        (index + 1 < count → sum ≤ u64Max) := by
    intro padding sum
    rw [interPadding]
    split <;> simp_all [orReject_eq_ok, u64Add_eq_some]
  simp only [layoutValidateTensor, bind_eq_ok, orReject_eq_ok, require_eq_ok, inter,
    accepted.storage, u64Add_eq_some, alignUpPowerOfTwo_eq_some power small, Option.some.injEq,
    pure_eq_ok, Bool.and_eq_true, beq_iff_eq, decide_eq_true_eq]
  constructor
  · rintro ⟨_, rfl, _, -, _, ⟨rfl, -⟩, _, ⟨rfl, -⟩, _, zero, _, follows, _, ⟨rfl, -⟩, _, ⟨rfl, -⟩,
      _, ⟨rfl, -⟩, _, -, _, -, _, inside, _, ⟨rfl, -⟩, _, ⟨rfl, -⟩, reads, read, rfl⟩
    have here : tensor.relativeOffset = layout.expected := by
      grind
    rw [here, ends] at inside read
    rw [pads] at read
    refine ⟨here, inside, reads, read, ?_⟩
    rw [Layout.advance, here, ends]
    by_cases more : index + 1 < count
    · simp [more]
    · simp [more]
  · rintro ⟨here, inside, reads, read, rfl⟩
    rw [here]
    refine ⟨_, rfl, (), rfl, _, ⟨rfl, by omega⟩, _, ⟨ends, by omega⟩, (), start, (), fun _ => rfl, _,
      ⟨rfl, by omega⟩, _, ⟨rfl, by omega⟩, _, ⟨rfl, by omega⟩, (), ⟨by omega, by omega⟩,
        (), by omega,
      (), inside, _, ⟨rfl, by omega⟩, _, ⟨rfl, fun more => by rw [if_pos more]; omega⟩, reads,
      by rwa [pads], ?_⟩
    rw [Layout.advance]
    by_cases more : index + 1 < count
    · simp [more]
    · simp [more]

/-! ## All tensors -/

theorem layoutValidateTensors_spec (power : file.alignment = 2 ^ exponent) (small : exponent ≤ 64)
    {tensors : List TensorInfo} (accepted : ∀ tensor ∈ tensors, tensor.Accepted tensorDataOffset)
    (counted : index + tensors.length = count) (start : index = 0 → layout.expected = 0)
    (sums : layout.rawTensorBytes + layout.interTensorPaddingBytes +
      layout.finalTensorPaddingBytes = layout.expected)
    (final : tensors ≠ [] → layout.finalTensorPaddingBytes = 0)
    (inside : tensorDataOffset + layout.expected ≤ file.bytes.length) :
    ((∃ last, layoutValidateTensors file tensorDataOffset count index tensors layout = .ok last ∧
        tensorDataOffset + last.expected = file.bytes.length) ↔
      Tiled file.alignment layout.expected tensors
        (file.bytes.drop (tensorDataOffset + layout.expected))) ∧
    ∀ last, layoutValidateTensors file tensorDataOffset count index tensors layout = .ok last →
      last.rawTensorBytes + last.interTensorPaddingBytes + last.finalTensorPaddingBytes =
        last.expected ∧ ∃ read, last.reads = layout.reads ++ read ∧
        Apart (tensorDataOffset + layout.expected) tensors read := by
  induction tensors generalizing index layout with
  | nil =>
    refine ⟨?_, fun last ran => ?_⟩
    · simp only [layoutValidateTensors, Except.ok.injEq, exists_eq_left', Tiled, drop_eq_nil_iff]
      omega
    · cases ran
      exact ⟨sums, [], (append_nil _).symm, ⟨by simp, .nil, by simp, by simp⟩⟩
  | cons tensor others induction =>
    obtain ⟨this, rest⟩ := forall_mem_cons.mp accepted
    have none := final (cons_ne_nil _ _)
    rw [length_cons] at counted
    have positive : file.alignment ≠ 0 := (power ▸ Nat.two_pow_pos exponent).ne'
    have above := @le_nextMultiple file.alignment (layout.expected + tensor.storageBytes) positive
    have stepped := fun next => @layoutValidateTensor_eq_ok _ file exponent tensorDataOffset index
      count tensor layout next power small this start (by omega) _ _ rfl rfl
    generalize ends : nextMultiple file.alignment (layout.expected + tensor.storageBytes) = padded
      at stepped
    have behind := fun reads (fits : tensorDataOffset + padded ≤ file.bytes.length) =>
      @induction (index + 1)
        (layout.advance (decide (count ≤ index + 1)) tensor.storageBytes padded reads) rest
        (by omega) (fun zero => absurd zero (Nat.succ_ne_zero _))
        (by simp only [Layout.advance]; split <;> omega)
        (fun more => by
          have length := length_pos_iff.mpr more
          simp only [Layout.advance]
          rw [if_neg (by rw [decide_eq_true_eq]; omega), none]) fits
    have offset := this.absoluteOffset
    have end_ := this.absoluteEndOffset
    have padding := fun fits : tensor.relativeOffset = layout.expected ∧
        tensorDataOffset + padded ≤ file.bytes.length =>
      @readZeroPadding_spec file.bytes tensorPaddingNonzero
        (padded - (layout.expected + tensor.storageBytes)) tensor.absoluteEndOffset
        (padded - (layout.expected + tensor.storageBytes)) layout.reads le_rfl (by omega)
    constructor
    · rw [Tiled, split_iff, ends, Zeros, drop_drop, drop_drop, length_drop]
      constructor
      · rintro ⟨last, ran, whole⟩
        obtain ⟨next, one, ran⟩ := bind_eq_ok.mp ran
        obtain ⟨here, fits, reads, read, rfl⟩ := (stepped next).mp one
        obtain ⟨parts, same, -⟩ := padding ⟨here, fits⟩
        have tiled := (behind reads fits).1.mp ⟨last, ran, whole⟩
        refine ⟨here, by omega, ?_, ?_⟩
        · have zeros := ((same reads).mp read).1
          rwa [← end_, ← offset, here] at zeros
        · rw [show tensorDataOffset + layout.expected + (tensor.storageBytes +
            (padded - (layout.expected + tensor.storageBytes))) = tensorDataOffset + padded by omega]
          exact tiled
      · rintro ⟨here, enough, zeros, tiled⟩
        have fits : tensorDataOffset + padded ≤ file.bytes.length := by omega
        obtain ⟨parts, same, -⟩ := padding ⟨here, fits⟩
        rw [show tensorDataOffset + layout.expected + (tensor.storageBytes +
            (padded - (layout.expected + tensor.storageBytes))) = tensorDataOffset + padded by omega]
          at tiled
        have read := (same (layout.reads ++ parts)).mpr
          ⟨by rw [← end_, ← offset, here]; exact zeros, rfl⟩
        obtain ⟨last, ran, whole⟩ := (behind (layout.reads ++ parts) fits).1.mpr tiled
        exact ⟨last, bind_eq_ok.mpr ⟨_, (stepped _).mpr ⟨here, fits, _, read, rfl⟩, ran⟩, whole⟩
    · intro last ran
      obtain ⟨next, one, ran⟩ := bind_eq_ok.mp ran
      obtain ⟨here, fits, reads, read, rfl⟩ := (stepped next).mp one
      obtain ⟨parts, same, between⟩ := padding ⟨here, fits⟩
      obtain ⟨sums, others, whole, apart⟩ := (behind reads fits).2 last ran
      cases ((same reads).mp read).2
      refine ⟨sums, parts ++ others, whole.trans (append_assoc _ _ _), ?_⟩
      rw [← here, offset]
      refine apart.cons (by omega) ?_ fun part member => ?_
      · simp only [Layout.advance]
        omega
      · have bounds := between part member
        simp only [Layout.advance]
        omega

/-! ## The whole file -/

theorem GgufFile.view_eq_some (viewed : file.view = some gguf) :
    file.alignment ≠ 0 ∧ nextMultiple file.alignment file.directoryEnd = gguf.tensorDataOffset ∧
      ∀ tensor ∈ gguf.tensors, tensor.Accepted gguf.tensorDataOffset := by
  simp only [GgufFile.view, bind_eq_some, pure_eq_some] at viewed
  obtain ⟨tensorDataOffset, aligned, _, -, tensors, parsed, rfl⟩ := viewed
  have positive : file.alignment ≠ 0 := by
    obtain ⟨_, nonzero, -⟩ := bind_eq_some_iff.mp aligned
    simpa using ensure_eq_some.mp nonzero
  exact ⟨positive, ((alignOffset_eq_some positive).mp aligned).1, mapM_accepted parsed⟩

omit [QtypeTable] in
theorem GgufFile.exponent_le (power : file.alignment = 2 ^ exponent) : exponent ≤ 64 := by
  have range : 2 ^ exponent < 2 ^ 32 := power ▸ (file.alignmentValue.getD 32).toNat_lt
  have := (Nat.pow_lt_pow_iff_right (by decide)).mp range
  omega

theorem layoutValidate_eq_ok {total : Nat} (power : file.alignment = 2 ^ exponent)
    (aligned : nextMultiple file.alignment file.directoryEnd = gguf.tensorDataOffset) :
    layoutValidate file gguf = .ok (layout, total) ↔
      gguf.tensorDataOffset ≤ file.bytes.length ∧ ∃ reads,
        readZeroPadding file.bytes directoryPaddingNonzero
          (gguf.tensorDataOffset - file.directoryEnd) file.directoryEnd
          (gguf.tensorDataOffset - file.directoryEnd) [] = .ok reads ∧
        layoutValidateTensors file gguf.tensorDataOffset gguf.tensors.length 0 gguf.tensors
          ⟨0, 0, 0, 0, 0, 0, reads⟩ = .ok layout ∧
        gguf.tensorDataOffset + layout.expected = file.bytes.length ∧
        gguf.tensorDataOffset - file.directoryEnd + layout.interTensorPaddingBytes +
          layout.finalTensorPaddingBytes = total ∧ total ≤ u64Max := by
  have positive : file.alignment ≠ 0 := (power ▸ Nat.two_pow_pos exponent).ne'
  have clear := (Nat.and_sub_one_eq_zero_iff_isPowerOfTwo positive).mpr ⟨exponent, power⟩
  have limit := file.small
  simp only [layoutValidate, bind_eq_ok, orReject_eq_ok, require_eq_ok, u64Add_eq_some,
    alignUpPowerOfTwo_eq_some power (GgufFile.exponent_le power), aligned, pure_eq_ok,
    Prod.mk.injEq, bne_iff_ne, beq_iff_eq, decide_eq_true_eq]
  constructor
  · grind
  · rintro ⟨inside, reads, read, ran, whole, rfl, fits⟩
    exact ⟨(), positive, (), clear, _, ⟨rfl, by omega⟩, (), rfl, (), inside, reads, read, layout,
      ran, _,
      ⟨rfl, by omega⟩, _, ⟨rfl, fits⟩, _, ⟨rfl, by omega⟩, (), by omega, (), by omega, rfl, rfl⟩

/-- The validator accepts exactly the canonical files among those that the reader accepts. What it
counts is then the whole file, the tensors are apart, and none of their bytes was read. -/
theorem layoutValidate_canonical {gguf : GgufView} (viewed : file.view = some gguf) :
    ((∃ result, layoutValidate file gguf = .ok result) ↔
      file.alignment.isPowerOfTwo ∧ Canonical file gguf) ∧
    ∀ layout total, layoutValidate file gguf = .ok (layout, total) →
      file.directoryEnd + total + layout.rawTensorBytes = file.bytes.length ∧
      (gguf.tensors.Pairwise fun left right => left.absoluteEndOffset ≤ right.absoluteOffset) ∧
      ∀ read ∈ layout.reads, ∀ tensor ∈ gguf.tensors,
        read.1 + read.2 ≤ tensor.absoluteOffset ∨ tensor.absoluteEndOffset ≤ read.1 := by
  obtain ⟨positive, aligned, accepted⟩ := GgufFile.view_eq_some viewed
  have above := @le_nextMultiple file.alignment file.directoryEnd positive
  rw [aligned] at above
  have limit := file.small
  by_cases isPower : file.alignment.isPowerOfTwo
  swap
  · have refused : ∀ result, layoutValidate file gguf ≠ .ok result := by
      intro result ran
      obtain ⟨_, -, ran⟩ := bind_eq_ok.mp ran
      obtain ⟨_, clear, -⟩ := bind_eq_ok.mp ran
      exact isPower ((Nat.and_sub_one_eq_zero_iff_isPowerOfTwo positive).mp
        (by simpa using require_eq_ok.mp clear))
    exact ⟨iff_of_false (fun ⟨result, ran⟩ => refused result ran) fun both => isPower both.1,
      fun layout total ran => absurd ran (refused _)⟩
  obtain ⟨exponent, power⟩ := isPower
  have succeeds := fun layout total => @layoutValidate_eq_ok _ file exponent layout gguf total power
    aligned
  have padding := fun fits : gguf.tensorDataOffset ≤ file.bytes.length =>
    @readZeroPadding_spec file.bytes directoryPaddingNonzero
      (gguf.tensorDataOffset - file.directoryEnd) file.directoryEnd
      (gguf.tensorDataOffset - file.directoryEnd) [] le_rfl (by omega)
  have tensors := fun reads fits => @layoutValidateTensors_spec _ file exponent
    gguf.tensorDataOffset 0 gguf.tensors.length ⟨0, 0, 0, 0, 0, 0, reads⟩ power
    (GgufFile.exponent_le power) gguf.tensors accepted (zero_add _) (fun _ => rfl) rfl
    (fun _ => rfl) fits
  refine ⟨?_, fun layout total ran => ?_⟩
  · rw [and_iff_right ⟨exponent, power⟩, Canonical, split_iff, aligned, Nat.add_sub_cancel' above]
    constructor
    · rintro ⟨⟨layout, total⟩, ran⟩
      obtain ⟨inside, reads, read, ran, whole, -⟩ := (succeeds layout total).mp ran
      obtain ⟨parts, same, -⟩ := padding inside
      exact ⟨inside, ((same reads).mp read).1, (tensors reads inside).1.mp ⟨layout, ran, whole⟩⟩
    rintro ⟨inside, zeros, tiled⟩
    obtain ⟨parts, same, -⟩ := padding inside
    obtain ⟨layout, ran, whole⟩ := (tensors ([] ++ parts) inside).1.mpr tiled
    have sums := ((tensors ([] ++ parts) inside).2 layout ran).1
    exact ⟨(layout, _), (succeeds layout _).mpr ⟨inside, _, (same _).mpr ⟨zeros, rfl⟩, ran, whole,
      rfl, by omega⟩⟩
  · obtain ⟨inside, reads, read, ran, whole, rfl, -⟩ := (succeeds layout total).mp ran
    obtain ⟨parts, same, within⟩ := padding inside
    cases ((same reads).mp read).2
    obtain ⟨sums, later, reads, apart⟩ := (tensors ([] ++ parts) inside).2 layout ran
    refine ⟨by omega, apart.ordered, ?_⟩
    rw [reads]
    refine forall_mem_append.mpr ⟨fun read member tensor there => .inl ?_, apart.unread⟩
    have bounds := within read member
    have start := apart.behind tensor there
    omega

end

@[reducible] def byteTypes : QtypeTable := ⟨fun _ => some ⟨1, 1⟩⟩

def paddedFile : GgufFile where
  bytes := [1, 2, 3, 0, 7, 8, 0, 0, 9, 9, 9, 0]
  alignmentValue := some 4
  rows := [⟨0, [2], 0⟩, ⟨0, [3], 4⟩]
  directoryEnd := 3
  directoryEnd_le := by decide
  small := by decide

theorem layoutValidate_canonical_padded : (@GgufFile.view byteTypes paddedFile).isSome ∧
    ∃ result, @layoutValidate byteTypes paddedFile
      ⟨4, [⟨⟨0, [2], 0⟩, 2, 4, 6⟩, ⟨⟨0, [3], 4⟩, 3, 8, 11⟩]⟩ = .ok result := by
  refine ⟨rfl, (@layoutValidate_canonical byteTypes paddedFile _ rfl).1.mpr ⟨⟨2, rfl⟩, ?_⟩⟩
  refine ⟨[1, 2, 3], [7, 8, 0, 0, 9, 9, 9, 0], rfl, rfl, rfl, [7, 8], [9, 9, 9, 0], rfl, rfl, ?_⟩
  exact ⟨rfl, [9, 9, 9], [], rfl, rfl, rfl⟩

end Yvex.Gguf
