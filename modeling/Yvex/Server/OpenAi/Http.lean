import Mathlib.Data.List.DropRight
import Yvex.Foundation.Stream
import Yvex.Provider.RequestWire

namespace Yvex.Server.OpenAi

/-! # Requests of the HTTP gateway

`yvex_openai_http_read` takes one request from a socket. The header block ends with the first
blank line, and `Content-Length` says how many bytes of the stream behind it are the body. -/

def headerMax : Nat := 32768

def headerCountMax : Nat := 64

def bodyMax : Nat := Provider.wireMaxBytes

/-- The sizes of the arrays of `openai_http_request`. -/
def methodCap : Nat := 8
def pathCap : Nat := 256

structure HttpRequest where
  method : Bytes
  path : Bytes
  body : Bytes
deriving DecidableEq

/-- What `parse_headers` finds in a header block. -/
structure Head where
  method : Bytes
  path : Bytes
  declared : Nat

/-- `content_length`: decimal digits that do not wrap. -/
def contentLengthDigits (parsed : Nat) : Bytes → Option Nat
  | [] => some parsed
  | digit :: digits =>
    if digit < 48 ∨ 57 < digit ∨ (u64Max - (digit.toNat - 48)) / 10 < parsed then none
    else contentLengthDigits (parsed * 10 + (digit.toNat - 48)) digits

def contentLength (text : Bytes) : Option Nat :=
  if text.isEmpty then none else contentLengthDigits 0 text

def lowered (letter : UInt8) : UInt8 :=
  if 65 ≤ letter ∧ letter ≤ 90 then letter + 32 else letter

def headerName (name expected : Bytes) : Bool := name.map lowered == expected

def contentLengthName : Bytes :=
  [99, 111, 110, 116, 101, 110, 116, 45, 108, 101, 110, 103, 116, 104]

def transferEncodingName : Bytes :=
  [116, 114, 97, 110, 115, 102, 101, 114, 45, 101, 110, 99, 111, 100, 105, 110, 103]

def isBlank (byte : UInt8) : Bool := byte == 32 || byte == 9

def trimmed (value : Bytes) : Bytes := (value.dropWhile isBlank).rdropWhile isBlank

def lines : Bytes → List Bytes
  | [] => [[]]
  | 13 :: 10 :: text => [] :: lines text
  | byte :: text =>
    match lines text with
    | [] => [[byte]]
    | line :: others => (byte :: line) :: others

def fieldLines (block : Bytes) : List Bytes :=
  (lines block).tail.takeWhile fun text => !text.isEmpty

def malformed {α : Type} : Except Rejection α :=
  .error ⟨.format, "malformed bounded HTTP/1.1 request"⟩

def tooLarge {α : Type} : Except Rejection α :=
  .error ⟨.bounds, "HTTP headers or body exceed the gateway limit"⟩

def httpVersion : Bytes := [72, 84, 84, 80, 47, 49, 46, 49]

def requestLine (text : Bytes) : Option (Bytes × Bytes) := do
  let space ← text.idxOf? 32
  ensure (space != 0 && decide (space < methodCap))
  let behind := text.drop (space + 1)
  let version ← behind.idxOf? 32
  ensure (version != 0 && decide (version < pathCap))
  let path := behind.take version
  ensure (behind.drop (version + 1) == httpVersion && path.head? == some 47)
  return (text.take space, path)

/-- The loop over the field lines, with the number of those that came and the length that one of
them has declared. -/
def headerFields : Nat → Option Nat → List Bytes → Except Rejection (Option Nat)
  | _, declared, [] => .ok declared
  | fields, declared, text :: others =>
    if headerCountMax < fields + 1 then tooLarge
    else
      match text.idxOf? 58 with
      | none => malformed
      | some colon =>
        if colon = 0 then malformed
        else if headerName (text.take colon) contentLengthName then
          match declared, contentLength (trimmed (text.drop (colon + 1))) with
          | none, some length => headerFields (fields + 1) (some length) others
          | _, _ => malformed
        else if headerName (text.take colon) transferEncodingName then
          .error ⟨.unsupported, "Transfer-Encoding requests are unsupported"⟩
        else headerFields (fields + 1) declared others

def postMethod : Bytes := [80, 79, 83, 84]

/-- `parse_headers` of a block that ends with its only blank line. -/
def parseHeaders (block : Bytes) : Except Rejection Head := do
  let (method, path) ← orReject (requestLine ((lines block).headD [])) .format
    "malformed bounded HTTP/1.1 request"
  let declared ← headerFields 0 none (fieldLines block)
  if method == postMethod && declared.isNone then malformed
  else if bodyMax < declared.getD 0 then tooLarge
  else return { method, path, declared := declared.getD 0 }

def blankLine : Bytes := [13, 10, 13, 10]

/-- `strstr` for the blank line, which does not look behind a zero byte. -/
def blankLineAt (buffer : Bytes) : Option Nat := occurrence blankLine (buffer.takeWhile (· != 0))

/-- `yvex_openai_http_read` of a stream that comes in the given pieces. -/
def httpRead (pieces : List Bytes) : Except Rejection HttpRequest :=
  match gather headerMax blankLineAt headerMax [] pieces with
  | .closed => .error ⟨.io, "HTTP client closed before the request completed"⟩
  | .full => .error ⟨.bounds, "HTTP header extent exceeds the gateway limit"⟩
  | .found position buffer rest => do
    let head ← parseHeaders (buffer.take (position + blankLine.length))
    let copied := buffer.drop (position + blankLine.length)
    require (decide (copied.length ≤ head.declared)) .format
      "bytes beyond Content-Length are refused"
    let body ← orReject (fill head.declared head.declared copied rest) .io
      "HTTP client closed before the request completed"
    return { method := head.method, path := head.path, body }

end Yvex.Server.OpenAi
