import Applik8s.Lib.Transaction
import Applik8s.Authority.Records

/-! `InMemoryApplicationAuthorityRepository`, as the interpreter of the calls a service
operation makes, with its transactions. A snapshot lists the records in the order
their ids were first stored. Beside the repository the world holds the service's
source of fresh ids, which no transaction winds back. -/
namespace Applik8s.Authority
open Lib (Table Program Interface Interpreter)

structure Repository where
  revision : Nat
  permissions : Table PermissionRecord
  roles : Table RoleRecord
  grants : Table GrantRecord
  delegations : Table DelegationRecord
  requests : Table GrantRequestRecord
  approvals : Table ApprovalRecord
  outcomes : Table OutcomeDefinition
  reservations : Table GrantReservation
  tombstones : Table RevocationTombstone
  audit : List AuditEvent
  catalogReferences : Table CatalogReference

namespace Repository

/-- `new InMemoryApplicationAuthorityRepository()`. -/
def empty : Repository where
  revision := 0
  permissions := .empty
  roles := .empty
  grants := .empty
  delegations := .empty
  requests := .empty
  approvals := .empty
  outcomes := .empty
  reservations := .empty
  tombstones := .empty
  audit := []
  catalogReferences := .empty

def snapshot (repository : Repository) : AuthoritySnapshot where
  revision := toString repository.revision
  permissions := repository.permissions.rows
  roles := repository.roles.rows
  grants := repository.grants.rows
  delegations := repository.delegations.rows
  requests := repository.requests.rows
  approvals := repository.approvals.rows
  outcomes := repository.outcomes.rows
  reservations := repository.reservations.rows
  tombstones := repository.tombstones.rows

variable (repository : Repository)

@[simp] theorem snapshot_permissions :
    repository.snapshot.permissions = repository.permissions.rows := rfl

@[simp] theorem snapshot_roles :
    repository.snapshot.roles = repository.roles.rows := rfl

@[simp] theorem snapshot_grants :
    repository.snapshot.grants = repository.grants.rows := rfl

@[simp] theorem snapshot_outcomes :
    repository.snapshot.outcomes = repository.outcomes.rows := rfl

@[simp] theorem snapshot_reservations :
    repository.snapshot.reservations = repository.reservations.rows := rfl

/-- What a failed transaction restores. The audit log is only ever appended to, so
cutting it to its length at the checkpoint is enough. -/
def restore (checkpoint current : Repository) : Repository :=
  { checkpoint with audit := current.audit.take checkpoint.audit.length }

end Repository

/-- The calls of `ApplicationAuthorityRepository`, and the service's own `#id()`. -/
inductive AuthorityCall where
  | snapshot
  | putPermission (record : PermissionRecord)
  | putRole (record : RoleRecord)
  | putGrant (record : GrantRecord)
  | putDelegation (record : DelegationRecord)
  | putRequest (record : GrantRequestRecord)
  | putApproval (record : ApprovalRecord)
  | putOutcome (record : OutcomeDefinition)
  | putReservation (record : GrantReservation)
  | putTombstone (record : RevocationTombstone)
  | putCatalogReference (revision : String) (kind : ReferenceKind) (referenceId : String)
      (operationIds : List OperationId)
  | removeCatalogReference (revision : String) (kind : ReferenceKind) (referenceId : String)
  | appendAudit (event : AuditEvent)
  | id

def AuthorityCall.Reply : AuthorityCall → Type
  | .snapshot => AuthoritySnapshot
  | .id => String
  | _ => Unit

def authorityInterface : Interface := ⟨AuthorityCall, AuthorityCall.Reply⟩

abbrev AuthorityProgram (α : Type) := Program authorityInterface AuthorityError α

structure World where
  repository : Repository
  /-- The id the generator returns on its n-th call. -/
  ids : Nat → String
  drawn : Nat

def World.write (world : World) (change : Repository → Repository) : World :=
  { world with repository := change world.repository }

/-- How the in-memory repository answers a call. Every put of a record advances the
revision; audit entries and catalog references do not. -/
def answer : (request : AuthorityCall) → World → request.Reply × World
  | .snapshot, world => (world.repository.snapshot, world)
  | .putPermission record, world => ((), world.write fun repository =>
    { repository with
      permissions := repository.permissions.put record, revision := repository.revision + 1 })
  | .putRole record, world => ((), world.write fun repository =>
    { repository with roles := repository.roles.put record, revision := repository.revision + 1 })
  | .putGrant record, world => ((), world.write fun repository =>
    { repository with grants := repository.grants.put record, revision := repository.revision + 1 })
  | .putDelegation record, world => ((), world.write fun repository =>
    { repository with
      delegations := repository.delegations.put record, revision := repository.revision + 1 })
  | .putRequest record, world => ((), world.write fun repository =>
    { repository with
      requests := repository.requests.put record, revision := repository.revision + 1 })
  | .putApproval record, world => ((), world.write fun repository =>
    { repository with
      approvals := repository.approvals.put record, revision := repository.revision + 1 })
  | .putOutcome record, world => ((), world.write fun repository =>
    { repository with
      outcomes := repository.outcomes.put record, revision := repository.revision + 1 })
  | .putReservation record, world => ((), world.write fun repository =>
    { repository with
      reservations := repository.reservations.put record, revision := repository.revision + 1 })
  | .putTombstone record, world => ((), world.write fun repository =>
    { repository with
      tombstones := repository.tombstones.put record, revision := repository.revision + 1 })
  | .putCatalogReference revision kind referenceId operationIds, world =>
    ((), world.write fun repository =>
      { repository with
        catalogReferences := repository.catalogReferences.put
          ⟨revision, kind, referenceId, sortStrings (distinctValues operationIds)⟩ })
  | .removeCatalogReference revision kind referenceId, world =>
    ((), world.write fun repository =>
      { repository with
        catalogReferences := repository.catalogReferences.remove (revision, kind, referenceId) })
  | .appendAudit event, world => ((), world.write fun repository =>
    { repository with audit := repository.audit ++ [event] })
  | .id, world => (world.ids world.drawn, { world with drawn := world.drawn + 1 })

def memory : Lib.Store authorityInterface World AuthoritySnapshot where
  answer := answer
  rollback checkpoint current :=
    { current with repository := checkpoint.repository.restore current.repository }
  observe world := world.repository.snapshot

/-- Executes a program against the in-memory repository, without a transaction. -/
abbrev execute {α : Type} (program : AuthorityProgram α) (world : World) :
    Except AuthorityError α × World :=
  program.exec memory.toInterpreter world

/-! ### The calls as programs -/

namespace Calls

def snapshot : AuthorityProgram AuthoritySnapshot := .call .snapshot .done
def putPermission (record : PermissionRecord) : AuthorityProgram Unit := .call (.putPermission record) .done
def putRole (record : RoleRecord) : AuthorityProgram Unit := .call (.putRole record) .done
def putGrant (record : GrantRecord) : AuthorityProgram Unit := .call (.putGrant record) .done
def putDelegation (record : DelegationRecord) : AuthorityProgram Unit := .call (.putDelegation record) .done
def putRequest (record : GrantRequestRecord) : AuthorityProgram Unit := .call (.putRequest record) .done
def putApproval (record : ApprovalRecord) : AuthorityProgram Unit := .call (.putApproval record) .done
def putOutcome (record : OutcomeDefinition) : AuthorityProgram Unit := .call (.putOutcome record) .done
def putReservation (record : GrantReservation) : AuthorityProgram Unit := .call (.putReservation record) .done
def putTombstone (record : RevocationTombstone) : AuthorityProgram Unit := .call (.putTombstone record) .done
def putCatalogReference (revision : String) (kind : ReferenceKind) (referenceId : String)
    (operationIds : List OperationId) : AuthorityProgram Unit :=
  .call (.putCatalogReference revision kind referenceId operationIds) .done
def removeCatalogReference (revision : String) (kind : ReferenceKind) (referenceId : String) :
    AuthorityProgram Unit :=
  .call (.removeCatalogReference revision kind referenceId) .done
def appendAudit (event : AuditEvent) : AuthorityProgram Unit := .call (.appendAudit event) .done
def id : AuthorityProgram String := .call .id .done

end Calls

structure AuditFields where
  principal : Option IdentityReference := none
  operationId : Option OperationId := none
  targetDigest : Option String := none
  details : List (String × AuditDetail)

/-- `#audit`. -/
def audit (dates : Dates) (now : Int) (kind : AuditKind) (authorityRevision : String)
    (fields : AuditFields) : AuthorityProgram Unit := do
  let id ← Calls.id
  Calls.appendAudit
    { id, kind, occurredAt := dates.toISOString now, authorityRevision, details := fields.details
      principal := fields.principal
      operationId := whenTruthy fields.operationId
      targetDigest := whenTruthy fields.targetDigest }

@[simp] theorem execute_snapshot : execute Calls.snapshot world = (.ok world.repository.snapshot, world) := rfl

@[simp] theorem execute_putPermission (record : PermissionRecord) :
    execute (Calls.putPermission record) world = (.ok (), (answer (.putPermission record) world).2) := rfl

@[simp] theorem execute_putGrant (record : GrantRecord) :
    execute (Calls.putGrant record) world = (.ok (), (answer (.putGrant record) world).2) := rfl

@[simp] theorem execute_putReservation (record : GrantReservation) :
    execute (Calls.putReservation record) world = (.ok (), (answer (.putReservation record) world).2) := rfl

end Applik8s.Authority
