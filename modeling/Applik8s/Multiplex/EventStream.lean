import Applik8s.Platform
import Applik8s.Lib.Utf8

/-! `sseData` of `http-transport.ts`: bytes as they arrive are decoded into a buffer, and what is before a
blank line is taken out of it as the data of one event. -/
namespace Applik8s.Multiplex
open Lib

inductive Overflow where
  | buffer (limit : Nat)
  | event (limit : Nat)
  deriving DecidableEq

def Overflow.message : Overflow → String
  | .buffer limit => s!"SSE buffer exceeded the bounded {limit}-byte limit."
  | .event limit => s!"SSE event exceeded the bounded {limit}-byte limit."

/-- `/^\r?\n\r?\n/`, and what follows the match. -/
def blankLine : List Char → Option (List Char)
  | '\r' :: '\n' :: '\r' :: '\n' :: rest => some rest
  | '\r' :: '\n' :: '\n' :: rest => some rest
  | '\n' :: '\r' :: '\n' :: rest => some rest
  | '\n' :: '\n' :: rest => some rest
  | _ => none

/-- What is before the first blank line, and what is after it. -/
def takeBlock : List Char → Option (List Char × List Char)
  | [] => none
  | char :: rest =>
    match blankLine (char :: rest) with
    | some after => some ([], after)
    | none => (takeBlock rest).map fun (block, after) => (char :: block, after)

/-- The value of a line `data:`. -/
def dataValue (line : List Char) : Option (List Char) :=
  if "data:".toList.isPrefixOf line then some ((line.drop 5).dropWhile isTrimmed) else none

def blockData (block : List Char) : List Char :=
  List.intercalate ['\n'] ((block.splitOn '\n').filterMap dataValue)

/-- The generator between two reads: its decoder, whether that has met its first character, the buffer,
what was yielded, and what was thrown. -/
structure Reader where
  decoder : Decoder := {}
  begun : Bool := false
  buffer : List Char := []
  yielded : List (List Char) := []
  failure : Option Overflow := none

/-- The loop over the blank lines of a buffer: what it yields, what it leaves, and what it throws. -/
def drain (maxEventBytes : Nat) : Nat → List Char → List (List Char) × List Char × Option Overflow
  | 0, buffer => ([], buffer, none)
  | fuel + 1, buffer =>
    match takeBlock buffer with
    | none => ([], buffer, none)
    | some (found, rest) =>
      let block := found.filter (· ≠ '\r')
      if maxEventBytes < byteLength block then ([], rest, some (.event maxEventBytes))
      else
        let (later, left, failure) := drain maxEventBytes fuel rest
        (if blockData block = [] then later else blockData block :: later, left, failure)

/-- A byte order mark that comes first is not part of the text. -/
def withoutMark : List Char → List Char
  | char :: rest => if char = Char.ofNat 0xFEFF then rest else char :: rest
  | [] => []

def Reader.decoded (reader : Reader) (chunk : List UInt8) : List Char :=
  let chars := (reader.decoder.decode chunk).2
  if reader.begun then chars else withoutMark chars

/-- One turn of the loop over `reader.read()`. -/
def Reader.read (maxEventBytes : Nat) (chunk : List UInt8) (reader : Reader) : Reader :=
  if reader.failure.isSome then reader
  else
    let (decoder, chars) := reader.decoder.decode chunk
    let begun := reader.begun || !chars.isEmpty
    let buffer := reader.buffer ++ reader.decoded chunk
    if maxEventBytes * 2 < byteLength buffer then
      { reader with decoder, begun, buffer, failure := some (.buffer (maxEventBytes * 2)) }
    else
      let (yielded, left, failure) := drain maxEventBytes buffer.length buffer
      { decoder, begun, buffer := left, yielded := reader.yielded ++ yielded, failure }

inductive FieldName where
  | data | event | id | retry | comment
  deriving DecidableEq

def FieldName.text : FieldName → List Char
  | .data => "data".toList
  | .event => "event".toList
  | .id => "id".toList
  | .retry => "retry".toList
  | .comment => []

/-- A line of an event: a field and what follows its colon. The value of a data line is what follows one
blank, if there is one, and begins with none. -/
structure Line where
  name : FieldName
  blank : Bool
  value : List Char
  oneLine : ∀ char ∈ value, char ≠ '\r' ∧ char ≠ '\n'
  trimmed : name = .data → ∀ char ∈ value.head?, isTrimmed char = false

def Line.text (line : Line) : List Char :=
  line.name.text ++ ':' :: ((if line.blank then [' '] else []) ++ line.value)

def dataOf (lines : List Line) : List Char :=
  List.intercalate ['\n'] (lines.filterMap fun line => if line.name = .data then some line.value else none)

structure Frame where
  lines : List Line
  crlf : Bool
  carries : dataOf lines ≠ []

def lineEnd (crlf : Bool) : List Char := if crlf then ['\r', '\n'] else ['\n']

def linesText (crlf : Bool) : List Line → List Char
  | [] => lineEnd crlf
  | line :: rest => line.text ++ lineEnd crlf ++ linesText crlf rest

def Frame.text (frame : Frame) : List Char := linesText frame.crlf frame.lines
def Frame.data (frame : Frame) : List Char := dataOf frame.lines
def texts (frames : List Frame) : List Char := frames.flatMap Frame.text

end Applik8s.Multiplex
