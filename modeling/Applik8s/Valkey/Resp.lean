import Applik8s.Lib.Decimal
import Applik8s.Lib.Frames
import Applik8s.Lib.Utf8

/-! RESP2 of `valkey-protocol.ts`: what `parseResp` makes of the bytes that have arrived, and the replies a
server writes. The parser is given a suffix of its buffer in place of the buffer and an offset, and gives back
what is left behind the reply in place of the offset. -/
namespace Applik8s.Valkey
open Lib
open String (ofList)

/-! ### Integers and lines -/

/-- `Number.MAX_SAFE_INTEGER`. -/
def maxSafeInteger : Nat := 9007199254740991

/-- What the parser throws other than that a reply is incomplete: a `ValkeyServerError`, or an `Error`. -/
inductive Failure where
  | server (reply : String)
  | invalidInteger (value : String)
  | unsafeInteger (value : String)
  | invalidBulkLength (length : Int)
  | invalidArrayLength (length : Int)
  | unsupportedType (type : UInt8)
  deriving DecidableEq

/-- `instanceof ValkeyServerError`. -/
def Failure.isServer : Failure → Bool
  | .server _ => true
  | _ => false

/-- `bytes.toString('utf8')`; what is left of a code point at the end is replaced. -/
def text (bytes : List UInt8) : List Char :=
  let (decoder, chars) := ({} : Decoder).decode bytes
  if decoder.needed = 0 then chars else chars ++ [Decoder.replacement]

/-- `/^-?\d+$/`, then `Number`, which must be safe. -/
def parseInteger (value : List Char) : Except Failure Int :=
  let digits := if value.head? = some '-' then value.tail else value
  if digits = [] ∨ ¬ digits.all Char.isDigit then .error (.invalidInteger (ofList value))
  else
    let magnitude := Nat.ofDigitChars 10 digits 0
    if magnitude ≤ maxSafeInteger then
      .ok (if value.head? = some '-' then -(magnitude : Int) else magnitude)
    else .error (.unsafeInteger (ofList value))

/-- The bytes before the first `\r\n`, and those behind it. -/
def cutLine : List UInt8 → Option (List UInt8 × List UInt8)
  | [] => none
  | 13 :: 10 :: rest => some ([], rest)
  | byte :: rest => (cutLine rest).map fun (line, next) => (byte :: line, next)

inductive ValkeyResponse where
  | text (value : String)
  | integer (value : Int)
  | null
  | array (values : List ValkeyResponse)

/-- What a parse comes to: a value and what is left behind it. -/
abbrev Parse (α : Type) : Type := List UInt8 → Except (Halt Failure) (α × List UInt8)

def parseItems (parse : Parse ValkeyResponse) : Nat → Parse (List ValkeyResponse)
  | 0, input => .ok ([], input)
  | count + 1, input =>
    match parse input with
    | .error halt => .error halt
    | .ok (value, rest) =>
      match parseItems parse count rest with
      | .error halt => .error halt
      | .ok (values, rest) => .ok (value :: values, rest)

/-- What is done with the first line, of which `line` is what follows the type byte. -/
def parseBody (parse : Parse ValkeyResponse) (type : UInt8) (line : List Char) : Parse ValkeyResponse := fun next =>
  if type = 43 then .ok (.text (ofList line), next)
  else if type = 58 then
    match parseInteger line with
    | .error failure => .error (.failed failure)
    | .ok value => .ok (.integer value, next)
  else if type = 45 then .error (.failed (.server (ofList line)))
  else if type = 36 then
    match parseInteger line with
    | .error failure => .error (.failed failure)
    | .ok length =>
      if length = -1 then .ok (.null, next)
      else if length < -1 then .error (.failed (.invalidBulkLength length))
      else if next.length < length.toNat + 2 then .error .incomplete
      else .ok (.text (ofList (text (next.take length.toNat))), next.drop (length.toNat + 2))
  else if type = 42 then
    match parseInteger line with
    | .error failure => .error (.failed failure)
    | .ok count =>
      if count = -1 then .ok (.null, next)
      else if count < -1 then .error (.failed (.invalidArrayLength count))
      else
        match parseItems parse count.toNat next with
        | .error halt => .error halt
        | .ok (values, rest) => .ok (.array values, rest)
  else .error (.failed (.unsupportedType type))

/-- `parseResp`, up to a depth of arrays within arrays. -/
def parseNested : Nat → Parse ValkeyResponse
  | 0, _ => .error .incomplete
  | depth + 1, input =>
    match input, cutLine input with
    | type :: _, some (line, next) => parseBody (parseNested depth) type (text line.tail) next
    | _, _ => .error .incomplete

/-- `parseResp`: no more arrays are nested in an input than it has bytes. -/
def parseResp : Parse ValkeyResponse := fun input => parseNested (input.length + 1) input

/-! ### The replies of a server -/

/-- A line of a reply, which holds neither carriage return nor line feed. -/
structure Line where
  bytes : List UInt8
  oneLine : ∀ byte ∈ bytes, byte ≠ 13 ∧ byte ≠ 10

inductive Reply where
  | simple (line : Line)
  | integer (value : Int)
  | bulk (bytes : List UInt8)
  | nullBulk
  | array (items : List Reply)
  | nullArray
  | error (line : Line)

mutual

def Reply.encode : Reply → List UInt8
  | .simple line => 43 :: line.bytes ++ [13, 10]
  | .integer value => 58 :: Lib.encode (decimal value) ++ [13, 10]
  | .bulk bytes => 36 :: Lib.encode (decimal bytes.length) ++ [13, 10] ++ (bytes ++ [13, 10])
  | .nullBulk => 36 :: Lib.encode (decimal (-1)) ++ [13, 10]
  | .array items => 42 :: Lib.encode (decimal items.length) ++ [13, 10] ++ Reply.encodeAll items
  | .nullArray => 42 :: Lib.encode (decimal (-1)) ++ [13, 10]
  | .error line => 45 :: line.bytes ++ [13, 10]

def Reply.encodeAll : List Reply → List UInt8
  | [] => []
  | reply :: rest => reply.encode ++ Reply.encodeAll rest

end

def integerMeaning (value : Int) : Except Failure Int :=
  if value.natAbs ≤ maxSafeInteger then .ok value
  else .error (.unsafeInteger (ofList (decimal value)))

mutual

/-- What a reply says: a value, or the first failure within it. -/
def Reply.meaning : Reply → Except Failure ValkeyResponse
  | .simple line => .ok (.text (ofList (text line.bytes)))
  | .integer value => (integerMeaning value).map .integer
  | .bulk bytes => (integerMeaning bytes.length).map fun _ => .text (ofList (text bytes))
  | .nullBulk => .ok .null
  | .array items => do
    let _ ← integerMeaning items.length
    let values ← Reply.meanings items
    .ok (.array values)
  | .nullArray => .ok .null
  | .error line => .error (.server (ofList (text line.bytes)))

def Reply.meanings : List Reply → Except Failure (List ValkeyResponse)
  | [] => .ok []
  | reply :: rest => do
    let value ← reply.meaning
    let values ← Reply.meanings rest
    .ok (value :: values)

end
end Applik8s.Valkey
