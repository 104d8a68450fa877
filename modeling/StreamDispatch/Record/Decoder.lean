import StreamDispatch.Document.Decode
import StreamDispatch.Document.Json.Reader
import StreamDispatch.Number.Word
import StreamDispatch.Text.Utf8

/-!
# Decoders for keys and values

A decoder turns the octets of a key or a payload into a value, or says why that is not
possible. It is told the topic, which it may use, and it gets `none` for a key or a payload
that is absent. The decoders here refuse absent data, and `Decoder.nullable` makes of any
decoder one that takes absent data as a value of its own.

## Main definitions

* `Decoder`, `DecodeError`, `DecodeError.message`.
* `Decoder.text`, `Decoder.octets`, `Decoder.long`, `Decoder.json`, `Decoder.nullable`.
* `encodeLong`: the octets of a 64-bit integer.
-/

namespace StreamDispatch

/-- Why octets could not be decoded. -/
inductive DecodeError
  /-- There are none. -/
  | absent (topic : String)
  /-- They are no UTF-8. -/
  | notUtf8 (fault : Utf8.Fault)
  /-- A 64-bit integer has eight octets, and here are so many. -/
  | wrongSize (size : Nat)
  /-- They are no JSON text, or one of another shape. -/
  | notJson (fault : Fault)
  /-- An application's own decoder refused them. -/
  | reported (message : String)
  deriving DecidableEq, Repr

/-- The text of a decoding error. -/
def DecodeError.message : DecodeError → String
  | .absent topic => s!"null data on topic '{topic}'"
  | .notUtf8 fault => s!"invalid UTF-8: {fault.message}"
  | .wrongSize size => s!"size of data received by LongDeserializer is not 8 but {size}"
  | .notJson fault => "invalid JSON" ++ fault.detail
  | .reported message => message

/-- Turns the octets of a key or a payload of a topic into a value. -/
abbrev Decoder (α : Type) := (topic : String) → Option Bytes → Except DecodeError α

namespace Decoder

/-- Makes a decoder of a function on octets; absent data is an error. -/
def require {α : Type} (read : Bytes → Except DecodeError α) : Decoder α
  | topic, none => .error (.absent topic)
  | _, some data => read data

/-- Text in UTF-8. -/
def text : Decoder String :=
  require fun data =>
    match Utf8.decode data with
    | .ok s => .ok s
    | .error fault => .error (.notUtf8 fault)

/-- The octets themselves. -/
def octets : Decoder Bytes := require .ok

/-- The number that octets stand for, the most significant first. -/
def bigEndian (data : Bytes) : Nat := data.foldl (fun n b => n * 256 + b.toNat) 0

/-- The integer between `-2⁶³` and `2⁶³ - 1` that leaves the given remainder by `2⁶⁴`. -/
def signed64 (n : Nat) : Int :=
  if n < halfWordCount64 then n else (n : Int) - wordCount64

/-- A 64-bit integer in two's complement, the most significant octet first. -/
def long : Decoder Int :=
  require fun data =>
    if data.length = 8 then .ok (signed64 (bigEndian data))
    else .error (.wrongSize data.length)

/-- A JSON text; `read` says what its document stands for. -/
def json {α : Type} (read : Document → Except Fault α) : Decoder α :=
  require fun data =>
    let reading := Json.read (symbolsOfBytes data)
    match read reading.document with
    | .error fault => .error (.notJson fault)
    | .ok a => if reading.complete then .ok a else .error (.notJson .malformed)

/-- Any JSON value in which at most 127 lists and tables are nested. -/
def anyJson : Decoder Document :=
  json fun d =>
    match d.whole? 127 with
    | some d => .ok d
    | none => .error .malformed

/-- Takes absent data as `none` and leaves everything else to another decoder. -/
def nullable {α : Type} (decoder : Decoder α) : Decoder (Option α)
  | _, none => .ok none
  | topic, some data => (decoder topic (some data)).map some

end Decoder

/-- The octets of the remainder of `n` by `256 ^ width`, the most significant first. -/
def octetsOf : (width : Nat) → (n : Nat) → Bytes
  | 0, _ => []
  | width + 1, n => octetsOf width (n / 256) ++ [.ofNat (n % 256)]

/-- The eight octets of a 64-bit integer in two's complement, the most significant first. -/
def encodeLong (n : Int) : Bytes := octetsOf 8 (n % wordCount64).toNat

end StreamDispatch
