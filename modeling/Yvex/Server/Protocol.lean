import Yvex.Foundation.Binary64
import Yvex.Foundation.Enumeration
import Yvex.Foundation.Tlv

namespace Yvex.Server

open Tlv Option

/-! # The local protocol

Requests and messages travel as frames of tagged fields. This module has the helpers that write
and read the payload of one field; a writer either refuses, has nothing to write, or makes a
field. -/

def localProtocolVersion : UInt32 := 25

def frameMaxBytes : Nat := 2097152

/-- The tags that `wire_reader` keeps in its set. -/
def trackedTags : Nat := 512

/-- `YVEX_SHA256_HEX_CAP`, which is also `YVEX_SERVER_ID_CAP`. -/
def sha256HexCap : Nat := 65

def sessionNameCap : Nat := 64

def modelAliasCap : Nat := 128

def statePathCap : Nat := 512

/-- `writer_field` without its check of the space that is left, which the frame makes as a whole. -/
def writerField (tag : Nat) (payload : Bytes) : Option (Option Field) :=
  if tag ≤ 65535 ∧ payload.length ≤ 4294967295 then some (some ⟨tag, payload⟩) else none

def writerU64 (tag : Nat) (value : UInt64) : Option (Option Field) :=
  writerField tag (writeU64 value)

def writerDouble (tag : Nat) (value : Binary64) : Option (Option Field) :=
  if value.isFinite then writerU64 tag value.bits else none

def writerText (tag : Nat) (text : CString) : Option (Option Field) :=
  if text.isEmpty then some none else writerField tag text.bytes

/-- A value of an enumeration, which `writer_u64` takes as its number. -/
def writerEnum {α : Type} [DecidableEq α] [Enumerated α] (tag : Nat) (value : α) :
    Option (Option Field) :=
  writerU64 tag (UInt64.ofNat (Enumerated.code value))

theorem writerField_eq_some : writerField tag payload = some emitted ↔
      (Tlv.Field.mk tag payload).Fits ∧ emitted = some ⟨tag, payload⟩ := by
  have fits : (Tlv.Field.mk tag payload).Fits ↔ tag ≤ 65535 ∧ payload.length ≤ 4294967295 := by
    simp only [Field.Fits]
    omega
  rw [writerField, fits]
  split
  · rename_i small
    rw [some.injEq]
    exact ⟨fun same => ⟨small, same.symm⟩, fun given => given.2.symm⟩
  · rename_i large
    exact ⟨nofun, fun given => absurd given.1 large⟩

theorem writerDouble_eq_some : writerDouble tag value = some emitted ↔
      value.isFinite = true ∧ (Tlv.Field.mk tag (writeU64 value.bits)).Fits ∧
        emitted = some ⟨tag, writeU64 value.bits⟩ := by
  rw [writerDouble]
  split
  · rename_i finite
    rw [writerU64, writerField_eq_some, finite, eq_self, true_and]
  · rename_i infinite
    exact ⟨nofun, fun given => absurd given.1 infinite⟩

theorem writerText_eq_some : writerText tag text = some emitted ↔
      if text.isEmpty then emitted = none
      else (Tlv.Field.mk tag text.bytes).Fits ∧ emitted = some ⟨tag, text.bytes⟩ := by
  rw [writerText]
  split
  · rw [some.injEq, eq_comm]
  · exact writerField_eq_some

def readerU64 (payload : Bytes) : Option UInt64 := readU64.whole payload

def readerDouble (payload : Bytes) : Option Binary64 := do
  let bits ← readerU64 payload
  ensure (Binary64.mk bits).isFinite
  return ⟨bits⟩

def readerText (capacity : Nat) (payload : Bytes) : Option CString := do
  ensure (decide (payload.length < capacity))
  CString.ofPlain payload

def readerEnum {α : Type} [DecidableEq α] [Enumerated α] (payload : Bytes) : Option α := do
  let value ← readerU64 payload
  Enumerated.ofCode value.toNat

/-- Truth values in the bits of a word. The mask is an `unsigned int`, so the upper half of the
word is not looked at. -/
def readerFlags {α : Type} [DecidableEq α] [Enumerated α] (payload : Bytes) :
    Option (α → Int32) := do
  let value ← readerU64 payload
  ensure (decide (value.toUInt32.toNat < 2 ^ Enumerated.count α))
  return Enumerated.flagsOf value

theorem readerU64_eq_some {value : UInt64} :
    readerU64 payload = some value ↔ payload = writeU64 value := by
  rw [readerU64, reads_u64.whole_eq_some, true_and]

@[simp] theorem readerU64_writeU64 (value : UInt64) : readerU64 (writeU64 value) = some value :=
  readerU64_eq_some.mpr rfl

theorem readerDouble_bits (finite : value.isFinite = true) :
    readerDouble (writeU64 value.bits) = some value := by
  simp [readerDouble, ensure, finite]

theorem readerText_bytes (short : text.bytes.length < capacity) :
    readerText capacity text.bytes = some text := by
  simp only [readerText, short]
  exact CString.ofPlain_eq_some.mpr rfl

variable {α : Type}

theorem readerEnum_code [DecidableEq α] [Enumerated α] (value : α) :
    readerEnum (writeU64 (UInt64.ofNat (Enumerated.code value))) = some value := by
  simp only [readerEnum, readerU64_writeU64, bind_eq_bind, bind_some, Enumerated.toNat_ofNat_code]
  exact Enumerated.ofCode_eq_some.mpr rfl

theorem readerFlags_flagWord [DecidableEq α] [Enumerated α] {flags : α → Int32}
    (valid : ∀ flag, flags flag = 0 ∨ flags flag = 1) :
    readerFlags (writeU64 (Enumerated.flagWord flags)) = some flags := by
  have small : (Enumerated.flagWord flags).toUInt32.toNat < 2 ^ Enumerated.count α := by
    exact lt_of_le_of_lt (Nat.mod_le _ _) (Enumerated.flagWord_lt flags)
  simp only [readerFlags, readerU64_writeU64, bind_eq_bind, bind_some,
    small, Enumerated.flagsOf_flagWord valid]
  rfl

end Yvex.Server
