import Mathlib.Algebra.Order.Ring.Rat
import Applik8s.Lib.Base64
import Applik8s.Lib.JsonText
import Applik8s.Lib.Merge
import Applik8s.Platform
import Applik8s.Valkey.Resp

/-! The reader of an online projection in Valkey: a page merges the sorted sets of its partitions, and its cursor
holds how far each of them has been read. -/
namespace Applik8s.OnlineProjection
open Lib Valkey

structure Scored where
  member : String
  score : Rat
deriving DecidableEq

def bytes (text : String) : List Nat := (encode text.toList).map UInt8.toNat

/-- `ZREVRANGE`: by score, the highest first, and members of one score by their bytes, the highest first. -/
def Scored.Precedes (left right : Scored) : Prop :=
  right.score < left.score ∨ left.score = right.score ∧ unitsLess (bytes right.member) (bytes left.member) = true

instance (left right : Scored) : Decidable (left.Precedes right) := inferInstanceAs (Decidable (_ ∨ _))

/-- A sorted set, in the order of `ZREVRANGE`. -/
structure SortedSet where
  entries : List Scored
  ordered : entries.Pairwise Scored.Precedes
  distinct : (entries.map Scored.member).Nodup

/-- `ZREVRANGE key start stop WITHSCORES`. -/
def SortedSet.reverseRange (set : SortedSet) (start stop : Nat) : List Scored :=
  (set.entries.drop start).take (stop + 1 - start)

/-- The rows of one partition: the sorted set under `order` and the hash under `values`. -/
structure Rows where
  order : SortedSet
  values : Record String

/-- What the reader reads: the rows of each generation and partition, and the keys beside them. -/
structure Keyspace where
  active : Option String
  checkpoint : Option Int
  rebuilding : Option String
  rows : String → String → Rows

/-- `lastIndexOf(":")`, and what stands on either side of it. -/
def splitRevision (revision : String) : String × String :=
  let reversed := revision.toList.reverse
  (String.ofList ((reversed.dropWhile (· ≠ ':')).drop 1).reverse, String.ofList (reversed.takeWhile (· ≠ ':')).reverse)

/-- `{ version: 1, revision, partitions, offsets }`. -/
def cursorPayload (revision : String) (partitions : List String) (offsets : List Nat) : Json :=
  .object [("version", .number 1), ("revision", .string revision), ("partitions", .array (partitions.map .string)),
    ("offsets", .array (offsets.map fun (offset : Nat) => .number offset))]

def cursorText (revision : String) (partitions : List String) (offsets : List Nat) : String :=
  String.ofList (Base64.encode (encode (JsonText.stringify (cursorPayload revision partitions offsets))))

def tooLong : String := "Valkey online projection cursor exceeds its 64000-character bound."

def encodeCursor (revision : String) (partitions : List String) (offsets : List Nat) : Except String String :=
  let encoded := cursorText revision partitions offsets
  if (codeUnits encoded).length > 64000 then .error tooLong else .ok encoded

def payloadMember (payload : Json) (name : String) : Option Json :=
  match payload with
  | .object members => Record.get members name
  | _ => none

def asString : Json → Option String
  | .string text => some text
  | _ => none

def asOffset : Json → Option Nat
  | .number value => if value.den = 1 ∧ 0 ≤ value ∧ value ≤ 10000000 then some value.num.toNat else none
  | _ => none

def payloadFields (payload : Json) : Option (String × List String × List Nat) :=
  match payloadMember payload "version", payloadMember payload "revision", payloadMember payload "partitions",
      payloadMember payload "offsets" with
  | some (.number version), some (.string revision), some (.array partitions), some (.array offsets) => do
    if version = 1 then some (revision, ← partitions.mapM asString, ← offsets.mapM asOffset) else none
  | _, _, _, _ => none

def decodeCursor (cursor : Option String) (currentRevision : String) (partitions : List String) :
    Except String (List Nat) :=
  match cursor with
  | none => .ok (partitions.map fun _ => 0)
  | some cursor =>
    if (codeUnits cursor).length > 64000 then .error tooLong
    else match JsonText.parse (Valkey.text (Base64.decode cursor.toList)) with
      | none => .error "Valkey online projection cursor is invalid."
      | some .null => .error "Cannot read properties of null (reading 'version')"
      | some payload =>
        match payloadFields payload with
        | none => .error "Valkey online projection cursor is invalid or outside its bounded range."
        | some (revision, selected, offsets) =>
          if revision ≠ currentRevision then
            .error ("Valkey online projection cursor is stale because the projection revision changed; " ++
              "restart from the first page.")
          else if JsonText.stringify (.array (selected.map .string)) ≠
              JsonText.stringify (.array (partitions.map .string)) ∨ offsets.length ≠ partitions.length then
            .error "Valkey online projection cursor does not belong to the requested partitions."
          else .ok offsets

structure PageOptions where
  partition : Option String := none
  partitions : List String := []
  limit : Int
  cursor : Option String := none

/-- `nonEmpty(value, "partition")`. -/
def nonEmpty (value : String) : Except String String :=
  if blank value then .error "Valkey online projection partition must not be empty."
  else if byteLength value.toList > 1024 then .error "Valkey online projection partition exceeds 1024 bytes."
  else .ok value

def normalizePagePartitions (options : PageOptions) : Except String (List String) :=
  let raw := match options.partition with
    | some partition => [partition]
    | none => options.partitions
  if raw.length < 1 ∨ 250 < raw.length then
    .error "Valkey online projection page must select between 1 and 250 partitions."
  else do
    let partitions ← raw.mapM nonEmpty
    if (distinctValues partitions).length ≠ partitions.length then
      .error "Valkey online projection page partitions must be unique."
    else .ok partitions

/-- `localeCompare`: a consistent comparison, under which different strings may compare equal. -/
structure Collation where
  compare : String → String → Ordering
  lawful : Std.TransCmp compare

structure Candidate where
  partition : String
  partitionIndex : Nat
  member : String
  score : Rat
deriving DecidableEq

/-- What a reader is made for: the projection's name, the host's collation, and a stored value parsed and checked
against the projection's schema. -/
structure Reader (Value : Type) where
  projection : String
  collation : Collation
  readValue : String → Except String Value

structure Page (Value : Type) where
  items : List Value
  /-- The members that the items are the values of. -/
  selected : List Candidate
  cursor : Option String
  generation : String
  eventWatermark : String
  rebuilding : Bool

def Collation.compareCandidates (collation : Collation) : Candidate → Candidate → Ordering :=
  compareLex (fun left right => Ord.compare right.score left.score)
    (compareLex (fun left right => collation.compare right.member left.member)
      fun left right => collation.compare left.partition right.partition)

def Collation.Ahead (collation : Collation) (left right : Candidate) : Prop :=
  (collation.compareCandidates left right).isLE = true

instance (collation : Collation) : DecidableRel collation.Ahead := fun left right =>
  inferInstanceAs (Decidable ((collation.compareCandidates left right).isLE = true))

def candidatesOf (partition : String) (index : Nat) (entries : List Scored) : List Candidate :=
  entries.map fun entry => ⟨partition, index, entry.member, entry.score⟩

/-- The windows of all selected partitions, one partition behind the other. -/
def Keyspace.candidates (keyspace : Keyspace) (generation : String) (partitions : List String) (offsets : List Nat)
    (limit : Nat) : List Candidate :=
  partitions.zipIdx.flatMap fun (partition, index) =>
    candidatesOf partition index ((keyspace.rows generation partition).order.reverseRange (offsets.getD index 0)
      (offsets.getD index 0 + limit))

/-- How far each partition has been read once the selected members are counted. -/
def nextOffsets (offsets : List Nat) (selected : List Candidate) : List Nat :=
  selected.foldl (fun offsets candidate => offsets.modify candidate.partitionIndex (· + 1)) offsets

variable {Value : Type}

def Reader.revision (reader : Reader Value) (keyspace : Keyspace) : Except String String :=
  match keyspace.active with
  | none | some "" =>
    .error ("Online projection " ++ reader.projection ++ " is unavailable because it has no active generation. " ++
      "Initialize or rebuild the projection and retry.")
  | some generation =>
    let checkpoint := keyspace.checkpoint.getD 0
    if checkpoint < 0 ∨ maxSafeInteger < checkpoint then .error "Valkey online projection checkpoint is invalid."
    else .ok (generation ++ ":" ++ String.ofList (decimal checkpoint))

/-- `HGET`, and what is stored read. -/
def Reader.itemOf (reader : Reader Value) (keyspace : Keyspace) (generation partition member : String) :
    Except String Value :=
  match (keyspace.rows generation partition).values.get member with
  | none => .error ("Valkey online projection " ++ reader.projection ++ " lost a selected projection value.")
  | some value => reader.readValue value

def Reader.page (reader : Reader Value) (keyspace : Keyspace) (options : PageOptions) :
    Except String (Page Value) := do
  let partitions ← normalizePagePartitions options
  if options.limit < 1 ∨ 500 < options.limit then
    .error "Valkey online projection page limit must be between 1 and 500."
  else
    let limit := options.limit.toNat
    let currentRevision ← reader.revision keyspace
    let offsets ← decodeCursor options.cursor currentRevision partitions
    let (generation, checkpoint) := splitRevision currentRevision
    let candidates :=
      (keyspace.candidates generation partitions offsets limit).insertionSort reader.collation.Ahead
    let selected := candidates.take limit
    let items ← selected.mapM fun candidate => reader.itemOf keyspace generation candidate.partition candidate.member
    let cursor ← if candidates.length > limit then
        some <$> encodeCursor currentRevision partitions (nextOffsets offsets selected)
      else .ok none
    .ok { items, selected, cursor, generation, eventWatermark := checkpoint,
          rebuilding := truthy keyspace.rebuilding }

end Applik8s.OnlineProjection
