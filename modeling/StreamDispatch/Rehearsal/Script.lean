import StreamDispatch.Context
import StreamDispatch.ErrorPolicy
import StreamDispatch.Record.Decoder
import StreamDispatch.Registration
import StreamDispatch.Worker.Step

/-!
# Scripted applications

To rehearse the engine one needs an application whose behaviour can be written down. Its
decoders are the built-in ones or one that breaks down; its handler goes through a list of
rules, of which the first that fits a call says how the call comes out, some of them only
so many times; and its error policy may be such a list as well.

## Main definitions

* `Datum`: what scripted decoders produce.
* `ScriptedDecoder`, `ScriptedDecoder.run`.
* `HandlerRule`, `Script.answer`: how a call comes out.
* `PolicyRule`, `scriptedPolicy`.
-/

namespace StreamDispatch

/-! ### Decoders -/

/-- An order, as it is found in JSON records. -/
structure Order where
  id : Nat
  amount : Int
  deriving DecidableEq, Repr

/-- The fields of an order, both of which have to be given. -/
def Order.fields : List (Document.FieldReader Order) :=
  [⟨"id", none, true, fun d o => (Document.decodeNat maxWord32 d).map fun n =>
      { o with id := n }⟩,
   ⟨"amount", none, true, fun d o =>
      (Document.decodeSigned64 d).map fun n => { o with amount := n }⟩]

/-- Reads an order. -/
def Order.ofDocument : Document → Except Fault Order :=
  Document.decodeRecord .json fields ⟨0, 0⟩

/-- What scripted decoders produce. -/
inductive Datum
  | absent
  | text (s : String)
  | octets (bs : Bytes)
  | long (n : Int)
  | json (d : Document)
  | order (o : Order)

/-- Two hexadecimal digits for each octet, in lower case. -/
def hexText (bs : Bytes) : String :=
  String.ofList (bs.flatMap fun b => [Nat.digitChar (b.toNat / 16), Nat.digitChar (b.toNat % 16)])

/-- A datum in writing. -/
def Datum.toDocument : Datum → Document
  | .absent => .null
  | .text s => .text s
  | .octets bs => .ofEntries [("hex", .text (hexText bs))]
  | .long n => .integer n
  | .json d => d
  | .order o => .ofEntries [("amount", .integer o.amount), ("id", .integer o.id)]

/-- What a scripted decoder decodes. -/
inductive DatumShape
  | text
  | octets
  | long
  | json
  | order
  /-- Nothing: the decoder breaks down. -/
  | explosive
  deriving DecidableEq, Repr

/-- A scripted decoder. -/
structure ScriptedDecoder where
  shape : DatumShape
  /-- Whether absent data is a value. -/
  nullable : Bool
  deriving DecidableEq, Repr

namespace ScriptedDecoder

/-- Decodes data of a shape; the outer error is the message of a breakdown. -/
def runShape (topic : String) (data : Option Bytes) :
    DatumShape → Except String (Except DecodeError Datum)
  | .text => .ok ((Decoder.text topic data).map .text)
  | .octets => .ok ((Decoder.octets topic data).map .octets)
  | .long => .ok ((Decoder.long topic data).map .long)
  | .json => .ok ((Decoder.anyJson topic data).map .json)
  | .order => .ok ((Decoder.json Order.ofDocument topic data).map .order)
  | .explosive => .error "deserializer exploded"

/-- Decodes data; the outer error is the message of a breakdown. -/
def run (d : ScriptedDecoder) (topic : String) (data : Option Bytes) :
    Except String (Except DecodeError Datum) :=
  match d.nullable, data with
  | true, none => .ok (.ok .absent)
  | _, data => runShape topic data d.shape

end ScriptedDecoder

/-! ### Handlers -/

/-- A call of a handler. -/
structure HandlerCall where
  context : DispatchContext
  key : Datum
  value : Datum

/-- Something that is asked for, if anything, is there. -/
def fits {α : Type} [DecidableEq α] (wanted : Option α) (given : α) : Bool :=
  match wanted with
  | some a => a = given
  | none => true

/-- A rule of a scripted handler. -/
structure HandlerRule where
  /-- The value that it asks for, in writing. -/
  value : Option Document
  offset : Option Int
  partition : Option Int
  topic : Option String
  /-- The number that the attempt has to stay below. -/
  attemptsBelow : Option Nat
  /-- How often the rule applies. -/
  times : Option Nat
  /-- Whether the call is held up until it is released. -/
  hold : Bool
  /-- How the call comes out. -/
  result : HandlerResult

namespace HandlerRule

/-- Whether a rule fits a call. -/
def applies (rule : HandlerRule) (call : HandlerCall) : Bool :=
  (match rule.value with
    | some d => d.same call.value.toDocument
    | none => true)
  && fits rule.offset call.context.offset
  && fits rule.partition call.context.partition
  && fits rule.topic call.context.topic
  && (match rule.attemptsBelow with
    | some n => decide (call.context.attempt < n)
    | none => true)

/-- A rule that has applied once more, unless it is used up. -/
def use? (rule : HandlerRule) : Option HandlerRule :=
  match rule.times with
  | none => some rule
  | some 0 => none
  | some (n + 1) => some { rule with times := some n }

end HandlerRule

/-- The rules of a scripted handler. -/
abbrev Script := List HandlerRule

/-- How a call comes out: the first rule that fits and is not used up says so, and without
one the call is accepted. Also whether the call is held up, and the rules as they are
afterwards. -/
def Script.answer (call : HandlerCall) : Script → (HandlerResult × Bool) × Script
  | [] => ((.accepted, false), [])
  | rule :: rest =>
    match rule.applies call, rule.use? with
    | true, some used => ((rule.result, rule.hold), used :: rest)
    | _, _ =>
      let (answer, rest) := Script.answer call rest
      (answer, rule :: rest)

/-! ### Policies -/

/-- A rule of a scripted policy. -/
structure PolicyRule where
  /-- The name of the kind of failure that it asks for. -/
  kind : Option String
  offset : Option Int
  message : Option String
  /-- The number that the attempt has to stay below. -/
  attemptsBelow : Option Nat
  /-- The decision, or the message of a breakdown. -/
  verdict : Except String Decision

/-- Whether a rule fits a failure. -/
def PolicyRule.applies (rule : PolicyRule) (record : RawRecord) (failure : RecordFailure) :
    Bool :=
  fits rule.kind failure.kind.name
  && fits rule.offset record.offset
  && fits rule.message failure.message
  && (match rule.attemptsBelow with
    | some n => decide (failure.attempt < n)
    | none => true)

/-- The policy whose first rule that fits decides; without one it is to stop. -/
def scriptedPolicy (rules : List PolicyRule) : ErrorPolicy :=
  .custom fun record failure =>
    match rules.find? fun rule => rule.applies record failure with
    | some rule => rule.verdict
    | none => .ok .stop

end StreamDispatch
