import Applik8s.Lib.Run
import Applik8s.Authority.Reconcile
import Applik8s.Authority.Migration
import Applik8s.Authority.Authorize
import Applik8s.Authority.Revocation

/-! `ApplicationAuthorityService`: its public operations as processes over the
repository, and what serving one of them does. Most operations are one transaction,
some after checks that need no state. `migrateGrantCatalog` reads the repository
outside a transaction and judges the outcome after it has committed;
`assertAuthorityTeardownSafe` opens no transaction at all. -/
namespace Applik8s.Authority
open Lib (Process)

inductive Operation where
  | reconcileApplicationPermissions (manifestRevision : String) (desired : List PermissionRecord)
  | createRuntimePermission (record : PermissionRecord)
  | createRuntimeRole (record : RoleRecord)
  | reconcileApplicationAuthority (manifest : AuthorityManifest)
  | reconcileStaticAuthorityManifest (manifest : StaticAuthorityManifest) (catalogRevision : String)
  | registerOutcome (record : OutcomeDefinition)
  | requestGrant (record : GrantRequestRecord)
  | decideGrantRequest (requestId : String) (decision : GrantDecision)
  | assignGrant (record : GrantRecord)
  | bootstrapDeclaredRole (bootstrap : StaticRoleBootstrapDefinition) (admittedIdentity : IdentityReference)
  | bootstrapRole (request : RoleBootstrapRequest)
  | assignBreakGlassRole (request : BreakGlassRoleRequest)
  | revokeRoleForIdentity (roleId : String) (identity : IdentityReference) (reason : String)
  | grantedRolesForIdentity (identity : IdentityReference)
  | migrateCatalogAuthority (older newer : OperationCatalog) (nextAuthorityRevision : String)
  | migrateGrantCatalog (grantId : String) (older newer : OperationCatalog) (nextAuthorityRevision : String)
  | delegate (record : DelegationRecord) (parentGrant : GrantRecord)
  | authorize (request : AuthorizationRequest)
  | transitionReservation (reservationId : String) (state : ReservationState) (uncertainEffect : Option Bool)
  | revalidateReceipt (receipt : AuthorizationReceipt) (catalog : OperationCatalog)
      (boundary : AuthorizationBoundary) (trustedContextDigest : String)
  | createRevocationTombstone (record : RevocationTombstone)
  | observeRevocationObligation (tombstoneId projection : String) (observation : RevocationObservation)
  | transferRevocationByBreakGlass (tombstoneId : String) (principal : IdentityReference)
      (acknowledgement : String)
  | assertAuthorityTeardownSafe (application : String)
  | revokeGrant (grantId reason : String)

inductive Response where
  | nothing
  | permissions (records : List PermissionRecord)
  | permission (record : PermissionRecord)
  | role (record : RoleRecord)
  | snapshot (state : AuthoritySnapshot)
  | outcome (record : OutcomeDefinition)
  | request (record : GrantRequestRecord)
  | grant (record : GrantRecord)
  | grants (records : List GrantRecord)
  | roleNames (names : List String)
  | delegation (record : DelegationRecord)
  | authorization (result : AuthorizationResult)
  | reservation (record : GrantReservation)
  | tombstone (record : RevocationTombstone)

abbrev AuthorityProcess := Process authorityInterface AuthoritySnapshot AuthorityError Response

/-- `this.#repository.transaction(work)`. -/
def transaction {α : Type} (work : AuthorityProgram α) (respond : α → Response) : AuthorityProcess :=
  .transact work fun result => .settled (result.map respond)

def guarded (checks : Except AuthorityError Unit) (process : AuthorityProcess) : AuthorityProcess :=
  match checks with
  | .ok _ => process
  | .error error => .settled (.error error)

/-- What `migrateGrantCatalog` makes of the migrated state. -/
def migratedGrant (grantId toRevision : String) (migrated : AuthoritySnapshot) :
    Except AuthorityError Response := do
  let message := s!"Grant {grantId} did not migrate to catalog {toRevision}."
  let grant ← found (migrated.grants.find? fun candidate => candidate.id = grantId)
    .catalogMigrationInvalid message
  refuseIf (grant.catalogRevision ≠ toRevision) .catalogMigrationInvalid message
  .ok (.grant grant)

/-- The check `migrateGrantCatalog` makes before it turns to `migrateCatalogAuthority`. -/
def assertMigratableGrant (grantId fromRevision : String) (state : AuthoritySnapshot) :
    Except AuthorityError Unit :=
  let before := state.grants.find? fun candidate => candidate.id = grantId ∧ ¬ truthy candidate.revokedAt
  refuseIf (before.all fun before => before.catalogRevision ≠ fromRevision) .grantUnavailable
    s!"Grant {grantId} is unavailable for catalog migration."

variable (dates : Dates) (world : World)

def migrateGrantCatalog (now : Int) (grantId : String) (older newer : OperationCatalog)
    (nextAuthorityRevision : String) : AuthorityProcess :=
  .observe fun state => guarded (assertMigratableGrant grantId older.revision state)
    (.transact (migrateCatalogAuthority dates now older newer nextAuthorityRevision) fun result =>
      .settled (result >>= migratedGrant grantId newer.revision))

def Operation.process (now : Int) : Operation → AuthorityProcess
  | .reconcileApplicationPermissions manifestRevision desired =>
    transaction (Authority.reconcileApplicationPermissions dates now manifestRevision desired) .permissions
  | .createRuntimePermission record => transaction (Authority.createRuntimePermission record) .permission
  | .createRuntimeRole record => transaction (Authority.createRuntimeRole dates now record) .role
  | .reconcileApplicationAuthority manifest =>
    transaction (Authority.reconcileApplicationAuthority dates now manifest) .snapshot
  | .reconcileStaticAuthorityManifest manifest catalogRevision =>
    transaction (Authority.reconcileStaticAuthorityManifest dates now manifest catalogRevision) .snapshot
  | .registerOutcome record => transaction (Authority.registerOutcome record) .outcome
  | .requestGrant record => transaction (Authority.requestGrant dates now record) .request
  | .decideGrantRequest requestId decision =>
    transaction (Authority.decideGrantRequest dates now requestId decision) .request
  | .assignGrant record => transaction (Authority.assignGrant dates now record) .grant
  | .bootstrapDeclaredRole bootstrap admittedIdentity =>
    transaction (Authority.bootstrapDeclaredRole dates now bootstrap admittedIdentity) .grants
  | .bootstrapRole request => guarded (validateRoleBootstrap request)
      (transaction (Authority.bootstrapDeclaredRole dates now request.definition request.identity) .grants)
  | .assignBreakGlassRole request => guarded (validateBreakGlass request)
      (transaction (Authority.assignBreakGlassRole dates now request) .grants)
  | .revokeRoleForIdentity roleId identity reason =>
    guarded (refuseIf (blank reason) .grantConflict "Role revocation requires a non-empty audited reason.")
      (transaction (Authority.revokeRoleForIdentity dates now roleId identity reason) .grants)
  | .grantedRolesForIdentity identity => transaction (Authority.grantedRolesForIdentity dates now identity) .roleNames
  | .migrateCatalogAuthority older newer nextAuthorityRevision =>
    transaction (Authority.migrateCatalogAuthority dates now older newer nextAuthorityRevision) .snapshot
  | .migrateGrantCatalog grantId older newer nextAuthorityRevision =>
    Authority.migrateGrantCatalog dates now grantId older newer nextAuthorityRevision
  | .delegate record parentGrant => transaction (Authority.delegate dates now record parentGrant) .delegation
  | .authorize request => transaction (Authority.authorize dates now request) .authorization
  | .transitionReservation reservationId state uncertainEffect =>
    transaction (Authority.transitionReservation dates now reservationId state uncertainEffect) .reservation
  | .revalidateReceipt receipt catalog boundary trustedContextDigest =>
    transaction (Authority.revalidateReceipt dates now receipt catalog boundary trustedContextDigest) .authorization
  | .createRevocationTombstone record => transaction (Authority.createRevocationTombstone record) .tombstone
  | .observeRevocationObligation tombstoneId projection observation =>
    transaction (Authority.observeRevocationObligation dates now tombstoneId projection observation) .tombstone
  | .transferRevocationByBreakGlass tombstoneId principal acknowledgement =>
    transaction (Authority.transferRevocationByBreakGlass dates now tombstoneId principal acknowledgement) .tombstone
  | .assertAuthorityTeardownSafe application => .observe fun state =>
      .settled ((Authority.assertAuthorityTeardownSafe application state).map fun _ => .nothing)
  | .revokeGrant grantId reason => transaction (Authority.revokeGrant dates now grantId reason) .grant

structure Submission where
  now : Int
  operation : Operation

def serve (submission : Submission) :
    Except AuthorityError Response × World :=
  (submission.operation.process dates submission.now).serial memory world

def advance (submission : Submission) : World :=
  (serve dates world submission).2

/-! ### A small installation

Records for concrete runs: one catalog with one operation, a grantable permission for
it, and grants of that permission. -/

def sampleInstant : Int := 1785283200500
def sampleTime : String := "2026-07-29T00:00:00.000Z"

def sampleIdentity (id : String) : IdentityReference :=
  { id, kind := .human, issuer := "https://identity.example", subject := id }

def sampleOperation : OperationDescriptor where
  id := "orders.update"
  version := "1"
  kind := .modelUpdate
  inputDigest := "sha256:input"
  outputDigest := "sha256:output"
  authority :=
    { classification := .runtimeGrantable, grantable := true, delegable := true
      checks := [.admission, .preCommit], defaultScope := .all }

def sampleCatalog : OperationCatalog where
  application := "shop"
  revision := "c1"
  state := .active
  operations := [sampleOperation]

/-- The same operations under the next revision of the catalog. -/
def nextCatalog : OperationCatalog := { sampleCatalog with revision := "c2", state := .staged }

def samplePermission : PermissionRecord where
  id := "orders"
  name := "orders"
  origin := .application
  manifestRevision := some "m1"
  catalogRevision := "c1"
  operationIds := ["orders.update"]
  scope := .all
  grantable := true
  createdAt := sampleTime

def sampleRole : RoleRecord where
  id := "clerk"
  name := "clerk"
  origin := .application
  permissionIds := ["orders"]
  createdAt := sampleTime

def sampleGrant (id holder : String) : GrantRecord where
  id := id
  origin := .runtime
  identity := sampleIdentity holder
  permissionId := some "orders"
  operationIds := ["orders.update"]
  scope := .all
  issuedBy := sampleIdentity "owner"
  catalogRevision := "c1"
  authorityRevision := "1"
  createdAt := sampleTime

def ownerGrant : GrantRecord :=
  { sampleGrant "owner-orders" "owner" with
    origin := .application, issuedBy := sampleIdentity "platform", canGrant := some true }

def sampleRepository (permissions : List PermissionRecord) (roles : List RoleRecord)
    (grants : List GrantRecord) : Repository :=
  { Repository.empty with
    permissions := .ofRows permissions, roles := .ofRows roles, grants := .ofRows grants }

def sampleWorld (repository : Repository) : World where
  repository := repository
  ids := fun drawn => s!"id-{drawn}"
  drawn := 0

theorem sampleIds_injective : Function.Injective fun drawn : Nat => s!"id-{drawn}" := by
  intro first second same
  have digits : Nat.toDigits 10 first = Nat.toDigits 10 second := by
    have chars := congrArg String.toList same
    simpa using chars
  have read : Nat.ofDigitChars 10 (Nat.toDigits 10 first) 0 = first :=
    Nat.ofDigitChars_toDigits (by decide) (by decide)
  rw [digits, Nat.ofDigitChars_toDigits (by decide) (by decide)] at read
  exact read.symm

def samplePrincipal : Principal where
  id := "clerk-session"
  identity := sampleIdentity "clerk"
  audience := ["web", "batch"]
  trustedContextDigest := "sha256:context"
  catalogRevision := "c1"
  authorityRevision := "1"

def sampleRequest : AuthorizationRequest where
  application := "shop"
  catalog := sampleCatalog
  operation := sampleOperation
  principal := samplePrincipal
  target := .all
  audience := "web"
  transport := .http
  inputDigest := "sha256:payload"
  trustedContextDigest := "sha256:context"

end Applik8s.Authority
