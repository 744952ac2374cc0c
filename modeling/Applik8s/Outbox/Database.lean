import Mathlib.Data.List.Sort
import Applik8s.Lib.Json
import Applik8s.Lib.Record
import Applik8s.Lib.Program

/-! The tables of durable commands, and what `postgres-outbox-runtime.ts` asks of them and of the event
log. A statement sees what is committed; what a cleanup deletes is deleted for itself alone until it
commits. Times are microseconds. -/
namespace Applik8s.Outbox
open Lib

/-- `ApplicationMessageChannel`, each with the outbox table that is relayed to it. -/
inductive Channel where
  | events
  | commands
  deriving DecidableEq

/-- A row of `applik8s_event_outbox`, or of `applik8s_command_outbox`. -/
structure OutboxRow where
  id : String
  scope : String
  envelope : Json
  createdAt : Int
  publishedAt : Option Int
  deriving DecidableEq

/-- A row of `applik8s_command_inbox`. A row that is written later under the same scope is another row:
it has another number. -/
structure InboxRow where
  number : Nat
  scope : String
  bindingId : String
  receivedAt : Int
  deriving DecidableEq

/-- `ApplicationAuthorizationReceipt`: what two receipts of one command may differ in, and the rest. -/
structure Receipt where
  id : String
  admittedAt : String
  application : String
  catalogRevision : String
  evidence : Json
  deriving DecidableEq

structure Admission where
  scope : String
  command : String
  bindingId : String
  commandId : String
  receipt : Receipt
  deriving DecidableEq

/-- A row of `applik8s_command_admissions`. -/
structure AdmissionRow extends Admission where
  admittedAt : Int
  deriving DecidableEq

/-- A row of `applik8s_operation_catalog_references`, of the kind `envelope`. -/
structure Reference where
  application : String
  revision : String
  referenceId : String
  deriving DecidableEq

def Admission.reference (admission : Admission) : Reference :=
  ⟨admission.receipt.application, admission.receipt.catalogRevision, admission.commandId⟩

def Admission.pair (admission : Admission) : String × Reference := (admission.scope, admission.reference)

structure Database where
  admissions : List AdmissionRow
  inbox : List InboxRow
  /-- The scopes whose result is stored. -/
  results : List String
  outbox : Channel → List OutboxRow
  references : List Reference

def Database.empty : Database := ⟨[], [], [], fun _ => [], []⟩

/-- The scopes that have an admission, each with the reference that keeps its catalog. -/
def Database.held (database : Database) : List (String × Reference) :=
  database.admissions.map (·.pair)

section
variable (database : Database)

/-- `sameCommandAdmissionReceipt`: evidence is compared without the identity and time of its receipt. -/
def sameEvidence (left right : Receipt) : Bool :=
  left.application = right.application && left.catalogRevision = right.catalogRevision &&
    left.evidence = right.evidence

/-- `persistCommandAdmission` of the gateway, and `persistCommandAuthorizationAdmission` of the worker:
the row is inserted, or there with the same evidence. -/
def Database.persistAdmission (now : Int) (admission : Admission) (conflict : String) :
    Except String Database :=
  match database.admissions.find? (·.scope = admission.scope) with
  | none => .ok { database with admissions := database.admissions ++ [⟨admission, now⟩] }
  | some existing =>
    if existing.toAdmission = admission then .ok database
    else if existing.command = admission.command && existing.bindingId = admission.bindingId
        && existing.commandId = admission.commandId
        && sameEvidence existing.receipt admission.receipt then
      .ok { database with
        admissions := database.admissions.map fun row =>
          if row.scope = admission.scope then { row with receipt := admission.receipt } else row }
    else .error conflict

end

section
/-- A message that a command worker takes: what its handler puts into the outboxes if it is run, each
under its id. -/
structure Execution where
  scope : String
  command : String
  bindingId : String
  messageId : String
  receipt : Option Receipt
  emits : Channel → List (String × Json)

/-- The admission of a message that carries an authorization receipt. -/
def Execution.admission (execution : Execution) : Option Admission :=
  execution.receipt.map fun receipt =>
    ⟨execution.scope, execution.command, execution.bindingId, execution.messageId, receipt⟩

variable (database : Database) (now : Int) (number : Nat) (execution : Execution)

def Execution.rows (now : Int) (execution : Execution) (channel : Channel) : List OutboxRow :=
  (execution.emits channel).map fun (id, envelope) => ⟨id, execution.scope, envelope, now, none⟩

/-- The transaction of a command: its result is there already, or it is run. Whether it is run says the
second part. -/
def Database.execute : Except String (Database × Bool) := do
  let conflict := s!"applik8s-command-admission-conflict: Durable command {execution.scope} has " ++
    "different authorization evidence."
  let database ← match execution.admission with
    | none => .ok database
    | some admission => database.persistAdmission now admission conflict
  if execution.scope ∈ database.results then return (database, false)
  else if database.inbox.any (·.scope = execution.scope) then
    .error "duplicate key value violates unique constraint \"applik8s_command_inbox_pkey\""
  else if [Channel.events, .commands].any fun channel =>
      ¬ ((execution.rows now channel).map OutboxRow.id ++ (database.outbox channel).map OutboxRow.id).Nodup then
    .error "duplicate key value violates unique constraint"
  else
    return ({ database with
      inbox := database.inbox ++ [⟨number, execution.scope, execution.bindingId, now⟩]
      results := database.results ++ [execution.scope]
      outbox := fun channel => database.outbox channel ++ execution.rows now channel }, true)

end

section
/-- What a cleanup has deleted so far, and the time before which outbox rows must have been published. -/
structure Deletions where
  cutoff : Int
  outbox : Channel → List OutboxRow
  inbox : List InboxRow
  admissions : List AdmissionRow
  references : List Reference

def Deletions.none (cutoff : Int) : Deletions := ⟨cutoff, fun _ => [], [], [], []⟩

variable (database : Database)

def Database.vacated (own : Deletions) : List String :=
  (database.inbox.filter (· ∈ own.inbox)).map InboxRow.scope

/-- The tables without what is deleted, and without what refers to it `ON DELETE CASCADE`. -/
def Database.without (own : Deletions) : Database where
  admissions := database.admissions.filter (· ∉ own.admissions)
  inbox := database.inbox.filter (· ∉ own.inbox)
  results := database.results.filter (· ∉ database.vacated own)
  outbox channel := (database.outbox channel).filter fun row =>
    row ∉ own.outbox channel && row.scope ∉ database.vacated own
  references := database.references.filter (· ∉ own.references)

def OutboxRow.publishedBefore (cutoff : Int) (row : OutboxRow) : Bool :=
  row.publishedAt.any (· < cutoff)

/-- `ORDER BY` a time and an id. -/
def inOrder {α : Type} (time : α → Int) (id : α → String) (rows : List α) : List α :=
  rows.insertionSort fun left right => time left < time right ∨ time left = time right ∧ id left ≤ id right

variable (bindingIds : List String) (cutoff : Int) (batchSize : Nat)

def Database.outboxCandidates (channel : Channel) : List OutboxRow :=
  (inOrder (fun row => row.publishedAt.getD 0) OutboxRow.id ((database.outbox channel).filter fun row =>
    (database.inbox.any fun inbox => inbox.scope = row.scope && inbox.bindingId ∈ bindingIds) &&
      row.publishedBefore cutoff)).take batchSize

/-- The inbox rows that are deleted: received before the audit window, with a result, and with no outbox
row that is pending or was published later than the cutoff. -/
def Database.inboxCandidates (auditCutoff : Int) : List InboxRow :=
  (inOrder InboxRow.receivedAt InboxRow.scope (database.inbox.filter fun inbox =>
    inbox.bindingId ∈ bindingIds && inbox.receivedAt < auditCutoff && inbox.scope ∈ database.results &&
      [Channel.events, .commands].all fun channel => (database.outbox channel).all fun row =>
        row.scope ≠ inbox.scope || row.publishedBefore cutoff)).take batchSize

/-- The admissions that are deleted: admitted before the audit window, with no inbox row. -/
def Database.admissionCandidates (auditCutoff : Int) : List AdmissionRow :=
  (inOrder AdmissionRow.admittedAt (·.scope) (database.admissions.filter fun admission =>
    admission.bindingId ∈ bindingIds && admission.admittedAt < auditCutoff &&
      !database.inbox.any (·.scope = admission.scope))).take batchSize

end

/-- The statements of the runtime, and what it asks of the event log. Statements of a cleanup are given
what it has deleted so far. -/
inductive Request where
  | selectPending (channel : Channel) (limit : Nat)
  | publish (channel : Channel) (envelope : Json)
  /-- `onPublishAcknowledged`. -/
  | acknowledged (channel : Channel) (envelope : Json)
  | markPublished (channel : Channel) (row : OutboxRow)
  | deleteOutbox (channel : Channel) (bindingIds : List String) (batchSize : Nat) (own : Deletions)
  | deleteInbox (bindingIds : List String) (auditCutoff : Int) (batchSize : Nat) (own : Deletions)
  | deleteAdmissions (bindingIds : List String) (auditCutoff : Int) (batchSize : Nat) (own : Deletions)
  | deleteReference (reference : Reference) (own : Deletions)
  | commit (own : Deletions)
  | putReference (reference : Reference)
  | persistAdmission (admission : Admission)
  | execute (execution : Execution)

@[reducible] def Request.Reply : Request → Type
  | .selectPending _ _ => List OutboxRow
  | .publish _ _ => Except String Bool
  | .deleteOutbox _ _ _ _ => List OutboxRow
  | .deleteInbox _ _ _ _ => List InboxRow
  | .deleteAdmissions _ _ _ _ => List AdmissionRow
  | .persistAdmission _ => Except String Unit
  | .execute _ => Except String Unit
  | _ => Unit

def Runtime : Interface where
  Call := Request
  Reply := Request.Reply

abbrev OutboxProgram (α : Type) := Program Runtime String α

def ask (request : Request) : OutboxProgram request.Reply := .call request .done

section
/-- What `JSON.parse` makes of a text. -/
abbrev Parse := String → Except String Json

variable (parse : Parse)

/-- `typeof value === 'object'`. -/
def isObject : Option Json → Bool
  | some .null | some (.array _) | some (.object _) => true
  | _ => false

/-- `eventOutboxEnvelope`: the envelope of a row, with its id. -/
def eventOutboxEnvelope (row : OutboxRow) : Except String (Json × String) := do
  let value ← match row.envelope with
    | .string text => parse text
    | value => .ok value
  let invalid := s!"applik8s-eventlog-outbox-invalid: Event outbox row {row.id} does not contain a " ++
    "valid message envelope."
  match value with
  | .object members =>
    match Record.get members "id" with
    | some (.string id) =>
      if isObject (Record.get members "contract") && isObject (Record.get members "payload") then
        return (value, id)
      else .error invalid
    | _ => .error invalid
  | _ => .error invalid

/-- `EventOutboxRelayResult`. -/
structure RelayResult where
  selected : Nat
  published : Nat
  duplicates : Nat
  messageIds : List String

def relayRows (channel : Channel) : List OutboxRow → RelayResult → OutboxProgram RelayResult
  | [], result => return result
  | row :: rest, result => do
    let (envelope, id) ← Program.check (eventOutboxEnvelope parse row)
    match ← ask (.publish channel envelope) with
    | .error failure => .throw failure
    | .ok duplicate =>
      ask (.acknowledged channel envelope)
      ask (.markPublished channel row)
      relayRows channel rest
        { result with
          published := result.published + 1
          duplicates := result.duplicates + if duplicate then 1 else 0
          messageIds := result.messageIds ++ [id] }

/-- `relayPostgresOutbox`. -/
def relayPostgresOutbox (channel : Channel) (limit : Option Nat) : OutboxProgram RelayResult := do
  let rows ← ask (.selectPending channel (max 1 (min (limit.getD 100) 1000)))
  relayRows parse channel rows ⟨rows.length, 0, 0, []⟩

end

section
/-- `CommandDataCleanupOptions`. -/
structure CleanupOptions where
  bindingIds : List String
  auditWindowSeconds : Int
  publishedOutboxWindowSeconds : Int
  batchSize : Option Int
  now : Option Int

/-- `CommandDataCleanupResult`. -/
structure CleanupResult where
  eventOutboxDeleted : Nat
  commandOutboxDeleted : Nat
  commandsDeleted : Nat
  admissionsDeleted : Nat
  deriving DecidableEq

def positiveInteger (value : Int) (field : String) : Except String Int :=
  if value < 1 then
    .error s!"applik8s-command-cleanup-invalid: {field} must be a positive integer."
  else .ok value

variable (options : CleanupOptions) (clock : Int)

/-- The end of a window before the time that the cleanup is given, or else reads from the clock. -/
def CleanupOptions.before (seconds : Int) : Int := options.now.getD clock - seconds * 1000000

/-- The time before which outbox rows must have been published. -/
def CleanupOptions.publishedCutoff : Int := options.before clock options.publishedOutboxWindowSeconds

/-- The time before which commands must have been received, or admitted. -/
def CleanupOptions.auditCutoff : Int := options.before clock options.auditWindowSeconds

/-- The references of deleted admissions, one after the other. -/
def deleteReferences : List AdmissionRow → Deletions → OutboxProgram Deletions
  | [], own => return own
  | row :: rest, own =>
    if row.reference.application = "" || row.reference.revision = "" || row.reference.referenceId = "" then
      deleteReferences rest own
    else do
      ask (.deleteReference row.reference own)
      deleteReferences rest { own with references := own.references ++ [row.reference] }

/-- `cleanupPostgresCommandData`. -/
def cleanupPostgresCommandData : OutboxProgram CleanupResult :=
  if options.bindingIds.isEmpty then return ⟨0, 0, 0, 0⟩
  else do
    let _ ← Program.check (positiveInteger options.auditWindowSeconds "auditWindowSeconds")
    let _ ← Program.check
      (positiveInteger options.publishedOutboxWindowSeconds "publishedOutboxWindowSeconds")
    let batchSize ← Program.check (positiveInteger (options.batchSize.getD 1000) "batchSize")
    let batchSize := (min 10000 batchSize).toNat
    let auditCutoff := options.auditCutoff clock
    let own := Deletions.none (options.publishedCutoff clock)
    let eventRows ← ask (.deleteOutbox .events options.bindingIds batchSize own)
    let own := { own with outbox := Function.update own.outbox .events eventRows }
    let commandRows ← ask (.deleteOutbox .commands options.bindingIds batchSize own)
    let own := { own with outbox := Function.update own.outbox .commands commandRows }
    let inboxRows ← ask (.deleteInbox options.bindingIds auditCutoff batchSize own)
    let own := { own with inbox := inboxRows }
    let admissionRows ← ask (.deleteAdmissions options.bindingIds auditCutoff batchSize own)
    let own ← deleteReferences admissionRows { own with admissions := admissionRows }
    ask (.commit own)
    return ⟨eventRows.length, commandRows.length, inboxRows.length, admissionRows.length⟩

end
end Applik8s.Outbox
