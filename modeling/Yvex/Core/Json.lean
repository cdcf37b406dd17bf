import Yvex.Foundation.Wire

namespace Yvex.Json

/-! # The JSON scanner

All JSON readers of the repository share one scanner over the bytes of a text. It keeps what is
left of the text and the depth of the value it skips. -/

def quote : UInt8 := 34
def comma : UInt8 := 44
def colon : UInt8 := 58
def backslash : UInt8 := 92
def questionMark : UInt8 := 63

/-- `isspace` in the C locale. -/
def isSpace (byte : UInt8) : Bool := byte == 32 || (decide (9 ≤ byte) && decide (byte ≤ 13))

def isDigit (byte : UInt8) : Bool := decide (48 ≤ byte) && decide (byte ≤ 57)

section

variable (input : Bytes)

def space : Bytes := input.dropWhile isSpace

inductive Collection where
  | object
  | array
deriving DecidableEq

def Collection.opening : Collection → UInt8
  | .object => 123
  | .array => 91

def Collection.closing : Collection → UInt8
  | .object => 125
  | .array => 93

variable (collection : Collection)

def iterBegin (input : Bytes) : Option Bytes :=
  match space input with
  | [] => none
  | byte :: rest => if byte = collection.opening then some rest else none

/-- `yvex_json_item` together with the text behind it. -/
inductive Item where
  | error
  | finished (trailingSeparator : Bool) (rest : Bytes)
  | ready (rest : Bytes)

/-- `json_iter_advance` of an iterator that has returned `count` items. -/
def iterAdvance (count : Nat) (input : Bytes) : Item :=
  match space input with
  | [] => .error
  | byte :: rest =>
    if byte = collection.closing then .finished false rest
    else if count = 0 then .ready (byte :: rest)
    else if byte = comma then
      match space rest with
      | [] => .error
      | byte :: rest =>
        if byte = collection.closing then .finished true rest else .ready (byte :: rest)
    else .error

/-- `source_json_hex` and the digit's value. -/
def hexDigit (byte : UInt8) : Option Nat :=
  if 48 ≤ byte ∧ byte ≤ 57 then some (byte.toNat - 48)
  else if 97 ≤ byte ∧ byte ≤ 102 then some (byte.toNat - 87)
  else if 65 ≤ byte ∧ byte ≤ 70 then some (byte.toNat - 55)
  else none

def escapedByte (byte : UInt8) : Option UInt8 :=
  if byte = quote then some quote
  else if byte = backslash then some backslash
  else if byte = 47 then some 47
  else if byte = 98 then some 8
  else if byte = 102 then some 12
  else if byte = 110 then some 10
  else if byte = 114 then some 13
  else if byte = 116 then some 9
  else none

/-- What a string is written with: a byte as it is, a short escape or the code of a `\u` escape. -/
inductive Letter where
  | byte (byte : UInt8)
  | escaped (byte : UInt8)
  | unicode (code : Nat)

def letters : Bytes → Option (List Letter × Bytes)
  | [] => none
  | 92 :: 117 :: a :: b :: c :: d :: rest => do
    let code := (← hexDigit a) * 4096 + (← hexDigit b) * 256 + (← hexDigit c) * 16 + (← hexDigit d)
    let (others, rest) ← letters rest
    return (.unicode code :: others, rest)
  | 92 :: escape :: rest => do
    let byte ← escapedByte escape
    let (others, rest) ← letters rest
    return (.escaped byte :: others, rest)
  | byte :: rest =>
    if byte = quote then some ([], rest)
    else if byte < 0x20 then none
    else do
      let (others, rest) ← letters rest
      return (.byte byte :: others, rest)

/-- The byte that `yvex_json_string` stores for a letter: no `\u` escape is decoded. -/
def Letter.stored : Letter → UInt8
  | .byte letter => letter
  | .escaped letter => letter
  | .unicode _ => questionMark

def stringLetters : Option (List Letter × Bytes) :=
  match space input with
  | [] => none
  | byte :: rest => if byte = quote then letters rest else none

/-- `yvex_json_string` into an array of the given capacity. -/
def string (capacity : Nat) : Reader Bytes := fun input => do
  let (content, rest) ← stringLetters input
  ensure (decide (content.length < capacity))
  return (content.map Letter.stored, rest)

/-- `yvex_json_object_member`: the key of the next member, up to its value. -/
def memberKey (capacity : Nat) : Reader Bytes := fun input => do
  let (key, rest) ← (string capacity).run input
  match space rest with
  | [] => none
  | byte :: rest => if byte = colon then some (key, rest) else none

def literal (text : Bytes) (input : Bytes) : Option Bytes :=
  let input := space input
  if text.isPrefixOf input then some (input.drop text.length) else none

def digits : Option Bytes :=
  match input with
  | [] => none
  | byte :: rest => if isDigit byte then some (rest.dropWhile isDigit) else none

def skipNumber : Option Bytes := do
  let input := space input
  let input := if input.head? = some 45 then input.tail else input
  let input ← if input.head? = some 48 then some input.tail else digits input
  let input ← if input.head? = some 46 then digits input.tail else some input
  if input.head? = some 101 ∨ input.head? = some 69 then
    let input := input.tail
    digits (if input.head? = some 43 ∨ input.head? = some 45 then input.tail else input)
  else some input

end

def depthCap : Nat := 64

def keyCap : Nat := 1024

mutual

/-- `yvex_json_skip_value` at a depth. -/
def skipValue : Nat → Nat → Bytes → Option Bytes
  | 0, _, _ => none
  | fuel + 1, depth, input =>
    match space input with
    | [] => none
    | byte :: rest =>
      if byte = Collection.object.opening then
        if depth < depthCap then skipItems fuel (depth + 1) .object 0 rest else none
      else if byte = Collection.array.opening then
        if depth < depthCap then skipItems fuel (depth + 1) .array 0 rest else none
      else if byte = quote then (letters rest).map Prod.snd
      else if byte = 116 then literal [116, 114, 117, 101] input
      else if byte = 102 then literal [102, 97, 108, 115, 101] input
      else if byte = 110 then literal [110, 117, 108, 108] input
      else skipNumber input

/-- The loops of `json_skip_object` and `json_skip_array` behind `count` items. -/
def skipItems : Nat → Nat → Collection → Nat → Bytes → Option Bytes
  | 0, _, _, _, _ => none
  | fuel + 1, depth, collection, count, input =>
    match iterAdvance collection count input with
    | .error => none
    | .finished trailing rest => if trailing then none else some rest
    | .ready rest => do
      let rest ← match collection with
        | .object => ((memberKey keyCap).run rest).map Prod.snd
        | .array => some rest
      let rest ← skipValue fuel depth rest
      skipItems fuel depth collection (count + 1) rest

end

/-- `yvex_json_skip_value` at the outermost depth. Each of its steps takes a byte or passes to
the value that stands there, so twice the length of the text bounds them. -/
def skip (input : Bytes) : Option Bytes := skipValue (2 * input.length + 2) 0 input

/-- `yvex_json_complete` after values that were left. -/
def complete (input : Bytes) : Bool := (space input).isEmpty

end Yvex.Json
