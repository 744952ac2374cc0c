import Mathlib.Data.List.SplitOn
import Applik8s.Search.Values

/-! `search()` of both runtimes over the projection state it reads: the checks of a request, its
cursor, the documents it sees, the page of them it returns. The runtimes differ in the checks, in
how they select and in how they read dates; the rest is one definition. -/
namespace Applik8s.Search

inductive Direction where
  | ascending
  | descending
  deriving DecidableEq

/-- `ApplicationSearchSort`. -/
structure SortBy where
  field : String
  direction : Direction
  deriving DecidableEq

/-- The `orderBy` of a request: one sort, or several. -/
inductive OrderBy where
  | one (sort : SortBy)
  | many (sorts : List SortBy)
  deriving DecidableEq

/-- `ApplicationSearchRequest`; a limit that is not a natural number is refused in any case. -/
structure Query where
  text : Option String
  conditions : Option (Record Value)
  facets : Option (List String)
  orderBy : Option OrderBy
  limit : Option Nat

/-- `ApplicationSearchAdmissionScope`. -/
structure Admission where
  principalId : String
  contextDigest : String
  authorizationVersion : String
  conditions : Record Value

variable (fields : Record IndexField) (unindexed unfilterable : String → String) (query : Query)

def Query.callerWhere : Record Value := query.conditions.getD []
def Query.requestedFacets : List String := query.facets.getD []

/-- `Array.isArray(request.orderBy) ? request.orderBy : request.orderBy ? [request.orderBy] : []`. -/
def Query.order : List SortBy :=
  match query.orderBy with
  | none => []
  | some (.one sort) => [sort]
  | some (.many sorts) => sorts

def Direction.text : Direction → String
  | .ascending => "asc"
  | .descending => "desc"

def SortBy.value (sort : SortBy) : Value :=
  .object [("field", .string sort.field), ("direction", .string sort.direction.text)]

def OrderBy.value : OrderBy → Value
  | .one sort => sort.value
  | .many sorts => .array (sorts.map SortBy.value)

/-- What `queryDigest` is the digest of. -/
def Query.value : Value :=
  .object [("text", .string (query.text.getD "")), ("where", .object query.callerWhere),
    ("facets", .array (query.requestedFacets.map .string)),
    ("orderBy", (query.orderBy.map OrderBy.value).getD (.array [])),
    ("limit", .number (.finite (query.limit.getD 20)))]

def FieldKind.filterable : FieldKind → Bool
  | .filter | .facet | .minimum | .maximum | .count => true
  | .text | .sort | .values => false

def validateComparison (comparison : Value) (field : String) : Except Failure Unit :=
  match comparison with
  | .undefined => .error (.refused s!"Search filter field {field} cannot be undefined.")
  | .object members =>
    if members.isEmpty
        || members.any (fun member => !(["eq", "ne", "in", "lt", "lte", "gt", "gte"].contains member.1)) then
      .error (.refused s!"Search filter field {field} has an empty or unsupported comparison.")
    else .ok ()
  | _ => .ok ()

/-- That a field may be filtered by, with the messages of who asks. -/
def validateField (field : String) : Except Failure Unit :=
  match fields.get field with
  | none => .error (.refused (unindexed field))
  | some declared =>
    if declared.kind.filterable then .ok () else .error (.refused (unfilterable field))

/-- `validateWhere`, and the loop of `validateAdmission`: field by field. -/
def validateWhere (conditions : Record Value) : Except Failure Unit :=
  conditions.forM fun condition => do
    validateField fields unindexed unfilterable condition.1
    validateComparison condition.2 condition.1

/-- What both runtimes check of a request besides its filters. -/
def validateShape : Except Failure Unit := do
  query.requestedFacets.forM fun name =>
    if (fields.get name).any (·.kind = .facet) then .ok ()
    else .error (.refused s!"Search field {name} is not facetable.")
  query.order.forM fun sort =>
    if (fields.get sort.field).isSome then .ok ()
    else .error (.refused s!"Search sort field {sort.field} is not indexed.")

def validateText : Except Failure Unit :=
  if query.text.any blank then
    .error (.refused "Search text must not be empty when supplied.")
  else .ok ()

def validatePrincipal (admission : Admission) : Except Failure Unit :=
  if admission.principalId = "" || admission.contextDigest = ""
      || admission.authorizationVersion = "" then
    .error (.refused ("Search requires an admitted principal, trusted-context digest, and " ++
      "authorization version."))
  else .ok ()

/-- `SearchCursor`, without its protocol. -/
structure SearchCursor where
  logicalIndex : String
  indexRevision : String
  physicalGeneration : String
  checkpoint : Nat
  principalId : String
  contextDigest : String
  authorizationVersion : String
  queryDigest : String
  offset : Nat
  deriving DecidableEq

/-- The texts of cursors and their signatures under a secret: base64url, JSON and HMAC-SHA-256. -/
structure Seal where
  /-- `Buffer.from(JSON.stringify(cursor)).toString('base64url')`. -/
  payload : SearchCursor → String
  /-- `JSON.parse(Buffer.from(payload, 'base64url').toString('utf8'))`, where it is a cursor of the
  protocol. -/
  parse : String → Option SearchCursor
  /-- `createHmac('sha256', secret).update(payload).digest('base64url')`. -/
  signature : String → String
  /-- Whether a signature, decoded, is the digest of the payload. -/
  verifies : String → String → Bool
  parse_payload : ∀ cursor, parse (payload cursor) = some cursor
  verifies_signature : ∀ payload, verifies payload (signature payload) = true
  payload_text : ∀ cursor, payload cursor ≠ "" ∧ '.' ∉ (payload cursor).toList
  signature_text : ∀ payload, signature payload ≠ "" ∧ '.' ∉ (signature payload).toList

def encodeCursor (sealing : Seal) (cursor : SearchCursor) : String :=
  let payload := sealing.payload cursor
  payload ++ "." ++ sealing.signature payload

/-- `encoded.split('.')`. -/
def splitDots (encoded : String) : List String := (encoded.toList.splitOn '.').map String.ofList

def decodeCursor (sealing : Seal) (encoded : String) : Except Failure SearchCursor :=
  match splitDots encoded with
  | [payload, signature] =>
    if payload = "" || signature = "" then .error (.refused "Search cursor is malformed.")
    else if !sealing.verifies payload signature then
      .error (.refused "Search cursor signature is invalid.")
    else
      match sealing.parse payload with
      | some cursor => .ok cursor
      | none => .error (.refused "Search cursor payload is invalid.")
  | _ => .error (.refused "Search cursor is malformed.")

/-- `validateCursor`: the fields are compared in this order. -/
def validateCursor (cursor expected : SearchCursor) : Except Failure Unit := do
  let check (name : String) (agrees : Bool) : Except Failure Unit :=
    if agrees then .ok ()
    else .error (.refused s!"Search cursor {name} does not match the current admitted query.")
  if !isSafeInteger cursor.offset then .error (.refused "Search cursor contract is invalid.")
  check "logicalIndex" (cursor.logicalIndex = expected.logicalIndex)
  check "indexRevision" (cursor.indexRevision = expected.indexRevision)
  check "physicalGeneration" (cursor.physicalGeneration = expected.physicalGeneration)
  check "checkpoint" (cursor.checkpoint = expected.checkpoint)
  check "principalId" (cursor.principalId = expected.principalId)
  check "contextDigest" (cursor.contextDigest = expected.contextDigest)
  check "authorizationVersion" (cursor.authorizationVersion = expected.authorizationVersion)
  check "queryDigest" (cursor.queryDigest = expected.queryDigest)

section
structure Row (engine : Engine) where
  id : String
  document : Fields
  sourceProjectionRevision : String
  score : engine.Score

def compareScores (engine : Engine) (left right : engine.Score) : Ordering :=
  if engine.above left right then .lt else if engine.above right left then .gt else .eq

/-- The sorts of a request, the first that tells the documents apart. -/
def compareSorts (engine : Engine) (normalization : Normalization) (left right : Fields) :
    List SortBy → Ordering
  | [] => .eq
  | sort :: rest =>
    match compareValues engine normalization.order (left.read sort.field) (right.read sort.field) with
    | .eq => compareSorts engine normalization left right rest
    | comparison =>
      match sort.direction with
      | .ascending => comparison
      | .descending => comparison.swap

def compareSearchRows (engine : Engine) (normalization : Normalization) (order : List SortBy)
    (left right : Row engine) : Ordering :=
  let scores := if order.isEmpty then compareScores engine left.score right.score else .eq
  match scores with
  | .eq =>
    match compareSorts engine normalization left.document right.document order with
    | .eq => engine.localeCompare left.id right.id
    | comparison => comparison
  | comparison => comparison

structure View where
  generation : String
  checkpoint : Nat
  documents : Record (StoredDocument Fields)
  state : Freshness
  sourceHighWatermark : Nat
  lastAppliedAt : Option Int

/-- What a runtime is made with, as far as searches need it. -/
structure SearchOptions where
  logicalIndex : String
  indexRevision : String
  fields : Record IndexField
  sourceProjectionRevision : Option String
  /-- `maximumQueryDocuments`, or `maximumCandidateRows`. -/
  maximum : Nat

structure Provider (engine : Engine) where
  normalization : Normalization
  validate : SearchOptions → Query → Admission → Except Failure Unit
  visible : SearchOptions → Record (StoredDocument Fields) → Query → Admission → Except Failure (List (Row engine))

structure Hit (engine : Engine) where
  document : Fields
  score : Option engine.Score

structure SearchResult (engine : Engine) where
  hits : List (Hit engine)
  facets : List (String × List Bucket)
  cursor : Option String
  logicalIndex : String
  indexRevision : String
  physicalGeneration : String
  sourceProjectionRevision : String
  lagChanges : Nat
  lagMilliseconds : Int
  lagState : Freshness

variable {engine : Engine} (provider : Provider engine) (sealing : Seal) (options : SearchOptions)

def Row.hit (query : Query) (row : Row engine) : Hit engine :=
  ⟨row.document, query.text.map fun _ => row.score⟩

def bindings (view : View) (admission : Admission) (queryDigest : String) (offset : Nat) :
    SearchCursor where
  logicalIndex := options.logicalIndex
  indexRevision := options.indexRevision
  physicalGeneration := view.generation
  checkpoint := view.checkpoint
  principalId := admission.principalId
  contextDigest := admission.contextDigest
  authorizationVersion := admission.authorizationVersion
  queryDigest
  offset

/-- Where the page of a request begins, if its cursor is accepted. -/
def pageOffset (view : View) (admission : Admission) (queryDigest : String) (cursor : Option String) :
    Except Failure Nat :=
  match whenTruthy cursor with
  | none => .ok 0
  | some encoded => do
    let cursor ← decodeCursor sealing encoded
    validateCursor cursor (bindings options view admission queryDigest 0)
    return cursor.offset

/-- The `sourceProjectionRevision` of a page. -/
def pageRevision (page : List (Row engine)) : Except Failure String :=
  if page.isEmpty then .ok (options.sourceProjectionRevision.getD "")
  else digest engine (.array (page.map fun row => .string row.sourceProjectionRevision))

def search (now : Int) (query : Query) (admission : Admission) (view : View)
    (cursor : Option String) : Except Failure (SearchResult engine) := do
  provider.validate options query admission
  let queryDigest ← digest engine query.value
  let offset ← pageOffset sealing options view admission queryDigest cursor
  let visible ← provider.visible options view.documents query admission
  let sorted := engine.sort
    (compareSearchRows engine provider.normalization query.order) visible
  let limit ← boundedInteger (query.limit.getD 20) 1 100 "limit"
  let page := (sorted.drop offset).take limit
  let nextOffset := offset + page.length
  let nextCursor :=
    if nextOffset < sorted.length then
      some (encodeCursor sealing (bindings options view admission queryDigest nextOffset))
    else none
  let facets ← query.requestedFacets.mapM fun field => do
    return (field, ← facetBuckets engine (sorted.map (·.document)) field)
  let sourceProjectionRevision ← pageRevision options page
  return {
    hits := page.map (Row.hit query)
    facets
    cursor := nextCursor
    logicalIndex := options.logicalIndex
    indexRevision := options.indexRevision
    physicalGeneration := view.generation
    sourceProjectionRevision
    lagChanges := view.sourceHighWatermark - view.checkpoint
    lagMilliseconds :=
      if view.state = .current then 0
      else
        match view.lastAppliedAt with
        | none => 0
        | some instant => max 0 (now - instant)
    lagState := view.state }

end

variable (engine : Engine) (database : Database) (conditions : Record Value)

def row (fields : Record IndexField) (text : Option String)
    (entry : String × StoredDocument Fields) : Row engine :=
  ⟨entry.1, entry.2.document, entry.2.sourceProjectionRevision, scoreDocument engine fields entry.2.document text⟩

def deterministicProvider : Provider engine where
  normalization := .deterministic
  validate options query admission := do
    validateText query
    validateWhere options.fields (fun field => s!"Search request filter field {field} is not indexed.")
      (fun field => s!"Search field {field} is not filterable for request scope.")
      query.callerWhere
    validateShape options.fields query
    validatePrincipal admission
    validateWhere options.fields (fun field => s!"Search admission filter field {field} is not indexed.")
      (fun field => s!"Search field {field} is not filterable for admission scope.")
      admission.conditions
  visible options documents query admission :=
    if options.maximum < documents.length then
      .error (.refused (s!"Search index {options.logicalIndex} deterministic provider refuses to " ++
        s!"inspect {documents.length} documents above its {options.maximum}-document bound."))
    else
      .ok (((documents.filter fun entry =>
          matchesWhere engine .deterministic entry.2.document admission.conditions
            && matchesWhere engine .deterministic entry.2.document query.callerWhere).map
        (row engine options.fields query.text)).filter fun row =>
          query.text.isNone || engine.above row.score engine.zero)

/-- What PostgreSQL decides: containment of JSON, full-text matches, and the order of rows. -/
structure Database where
  /-- `document @> jsonb_build_object(field, value)`. -/
  contains : Fields → String → Value → Bool
  /-- `search_vector @@ websearch_to_tsquery('simple', text)`. -/
  matchesText : Fields → String → Bool
  /-- `ORDER BY document_id ASC`. -/
  ordered : Record (StoredDocument Fields) → Record (StoredDocument Fields)
  ordered_perm : ∀ rows, (ordered rows).Perm rows

/-- `indexedEqualityValues`. -/
def indexedEqualityValues (comparison : Value) : Option (List Value) :=
  match comparison with
  | .object operations =>
    match Record.get operations "eq" with
    | some operand => some [operand]
    | none =>
      match Record.get operations "in" with
      | some (.array candidates) => some candidates
      | some _ => some []
      | none => none
  | comparison => some [comparison]

/-- The predicates of `appendIndexedWhere`. -/
def indexedWhere (document : Fields) : Bool :=
  conditions.all fun condition =>
    match indexedEqualityValues condition.2 with
    | none => true
    | some values => values.any fun value =>
        database.contains document condition.1 ((Normalization.postgres engine).equality value)

/-- `postgresApplicationSearchFilterJsonText` throws for what JSON has no text for. -/
def serializable : Bool :=
  conditions.all fun condition =>
    ((indexedEqualityValues condition.2).getD []).all fun
      | .undefined => false
      | _ => true

/-- The PostgreSQL runtime selects candidates, and filters them as the other one does. -/
def postgresProvider : Provider engine where
  normalization := .postgres engine
  validate options query admission := do
    validateText query
    query.callerWhere.forM fun condition => validateField options.fields
      (fun field => s!"Search filter field {field} is not indexed.")
      (fun field => s!"Search field {field} is not filterable.") condition.1
    query.callerWhere.forM fun condition => validateComparison condition.2 condition.1
    validateShape options.fields query
    validatePrincipal admission
    validateWhere options.fields (fun field => s!"Search admission filter field {field} is not indexed.")
      (fun field => s!"Search field {field} is not filterable for admission scope.")
      admission.conditions
  visible options documents query admission :=
    if !(serializable admission.conditions && serializable query.callerWhere) then
      .error (.refused "Search equality filters must contain JSON-serializable values.")
    else
      let candidates := documents.filter fun entry =>
        query.text.all (database.matchesText entry.2.document)
          && indexedWhere engine database admission.conditions entry.2.document
          && indexedWhere engine database query.callerWhere entry.2.document
      if options.maximum < candidates.length then
        .error (.refused (s!"Search index {options.logicalIndex} refuses to construct " ++
          "authorization-sensitive results from a candidate universe above its " ++
          s!"{options.maximum}-row PostgreSQL bound."))
      else
        .ok (((database.ordered candidates).map (row engine options.fields query.text)).filter fun row =>
            matchesWhere engine (.postgres engine) row.document admission.conditions
              && matchesWhere engine (.postgres engine) row.document query.callerWhere)

end Applik8s.Search
