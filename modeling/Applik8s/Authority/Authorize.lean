import Applik8s.Authority.Grants

/-! Authorization of a request, the reservations of bounded grants, and the
revalidation of a receipt. The decision is a function of the request and the snapshot;
the program around it draws ids, stores the reservation and the envelope's catalog
reference, and writes the audit. A denial is a result, not an error: its audit entry
is committed. -/
namespace Applik8s.Authority
open Lib.Program (check)

structure AuthorizationRequest where
  application : String
  catalog : OperationCatalog
  operation : OperationDescriptor
  principal : Principal
  target : ScopeExpression
  scopeEvidence : Option (List ScopeExpression) := none
  audience : String
  transport : OperationTransport
  inputDigest : String
  trustedContextDigest : String
  idempotencyKey : Option String := none
  commandId : Option String := none
  targetDigest : Option String := none
  applicationPolicyAllowed : Option Bool := none

inductive DenialCode where
  | catalogInactive | operationUnclassified | operationMismatch | contextMismatch | audienceDenied
  | transportDenied | policyDenied | noGrant | scopeEmpty | grantExhausted | grantRevoked | grantExpired
  deriving DecidableEq

instance : ToString DenialCode where
  toString
    | .catalogInactive => "AUTHORIZATION_CATALOG_INACTIVE"
    | .operationUnclassified => "AUTHORIZATION_OPERATION_UNCLASSIFIED"
    | .operationMismatch => "AUTHORIZATION_OPERATION_MISMATCH"
    | .contextMismatch => "AUTHORIZATION_CONTEXT_MISMATCH"
    | .audienceDenied => "AUTHORIZATION_AUDIENCE_DENIED"
    | .transportDenied => "AUTHORIZATION_TRANSPORT_DENIED"
    | .policyDenied => "AUTHORIZATION_POLICY_DENIED"
    | .noGrant => "AUTHORIZATION_NO_GRANT"
    | .scopeEmpty => "AUTHORIZATION_SCOPE_EMPTY"
    | .grantExhausted => "AUTHORIZATION_GRANT_EXHAUSTED"
    | .grantRevoked => "AUTHORIZATION_GRANT_REVOKED"
    | .grantExpired => "AUTHORIZATION_GRANT_EXPIRED"

structure Denial where
  code : DenialCode
  message : String
  deriving DecidableEq

inductive AuthorizationResult where
  | allowed (receipt : AuthorizationReceipt) (reservation : Option GrantReservation)
  | denied (denial : Denial)
  deriving DecidableEq

def AuthorizationResult.isAllowed : AuthorizationResult → Bool
  | .allowed .. => true
  | .denied _ => false

/-- `if (condition) return deny(code, message)`. -/
def denyIf (condition : Prop) [Decidable condition] (code : DenialCode) (message : String) :
    Except Denial Unit :=
  if condition then .error ⟨code, message⟩ else .ok ()

@[simp] theorem denyIf_ok [Decidable condition] : denyIf condition code msg = .ok value ↔ ¬ condition := by
  unfold denyIf
  split <;> simp_all

@[simp] theorem denials_ok {α β : Type} {first : Except Denial α} {rest : α → Except Denial β} {value : β} :
    (first >>= rest) = .ok value ↔ ∃ middle, first = .ok middle ∧ rest middle = .ok value := by
  cases first <;> simp [bind, Except.bind]

variable (dates : Dates) (now : Int) (request : AuthorizationRequest) (grant : GrantRecord)
  (matched : MatchedAuthority) (state : AuthoritySnapshot)

def admission : Except Denial Unit := do
  let operation := request.operation
  let authority := operation.authority
  let revision := request.catalog.revision
  denyIf (request.catalog.state ≠ .active ∧ request.catalog.state ≠ .draining) .catalogInactive
    s!"Catalog {revision} is {request.catalog.state}."
  denyIf (operation.id ∉ request.catalog.operations.map OperationDescriptor.id ∨
      request.principal.catalogRevision ≠ revision) .operationMismatch
    s!"Principal and operation must resolve through catalog {revision}."
  denyIf (authority.classification = .unclassified) .operationUnclassified
    s!"Operation {operation.id} has no authority classification."
  denyIf (request.principal.trustedContextDigest ≠ request.trustedContextDigest) .contextMismatch
    "Trusted request context does not match the admitted principal."
  denyIf (request.audience ∉ request.principal.audience) .audienceDenied
    s!"Principal {request.principal.id} was not admitted for audience {request.audience}."
  denyIf (authority.audiences.any fun audiences => request.audience ∉ audiences) .audienceDenied
    s!"Audience {request.audience} is outside operation {operation.id}."
  denyIf (authority.transports.any fun transports => request.transport ∉ transports) .transportDenied
    s!"Transport {request.transport} is outside operation {operation.id}."
  denyIf (authority.classification = .applicationPolicy ∧ request.applicationPolicyAllowed ≠ some true)
    .policyDenied s!"Application policy denied {operation.id}."

/-- Public operations and those under an application policy consult no stored authority. -/
def consultsGrants : Bool :=
  request.operation.authority.classification ≠ .isPublic &&
    request.operation.authority.classification ≠ .applicationPolicy

def admits {τ : Type} [DecidableEq τ] (list : Option (List τ)) (item : τ) : Bool :=
  match list with
  | some items => item ∈ items
  | none => true

def rolePermissionIds : List String :=
  (state.roles.filter fun role =>
    ¬ truthy role.retiredAt ∧ role.name ∈ request.principal.roles.getD []).flatMap RoleRecord.permissionIds

def matchesPermission (permission : PermissionRecord) : Bool :=
  permission.id ∈ rolePermissionIds request state ∧ ¬ truthy permission.retiredAt ∧
    permission.catalogRevision = request.catalog.revision ∧
    request.operation.id ∈ permission.operationIds ∧
    admits permission.audiences request.audience ∧ admits permission.transports request.transport

def rolePermissions : List PermissionRecord :=
  if consultsGrants request then state.permissions.filter (matchesPermission request state) else []

/-- Whether a grant is for this principal, catalog, operation, audience and transport. -/
def matchesGrant : Bool :=
  grant.identity.id = request.principal.identity.id ∧
    grant.catalogRevision = request.catalog.revision ∧ request.operation.id ∈ grant.operationIds ∧
    admits grant.audiences request.audience ∧ admits grant.transports request.transport

def candidates : List GrantRecord :=
  if consultsGrants request then state.grants.filter (matchesGrant request) else []

def isLive : Bool :=
  ¬ truthy grant.revokedAt ∧ ¬ isExpired dates grant.expiresAt now

/-- The scopes every authorization of the request is intersected with. -/
def requestScopes : List ScopeExpression :=
  [request.operation.authority.defaultScope, request.target] ++ request.scopeEvidence.getD []

/-- The grant and the role permission an authorization rests on. -/
structure MatchedAuthority where
  grant : Option GrantRecord
  rolePermission : Option PermissionRecord

def MatchedAuthority.scopes : List ScopeExpression :=
  (matched.grant.map GrantRecord.scope).toList ++ (matched.rolePermission.map PermissionRecord.scope).toList

/-- The first live candidate, and the first role permission that leaves the request a scope. -/
def selectAuthority : MatchedAuthority where
  grant := (candidates request state).find? (isLive dates now)
  rolePermission := (rolePermissions request state).find? fun permission =>
    ¬ (intersectApplicationScopes (requestScopes request ++ [permission.scope])).isNone

/-- `scope.reason` of an empty scope. -/
def noneReason : ScopeExpression → String
  | .none reason => reason
  | _ => ""

def matchAuthority : Except Denial MatchedAuthority := do
  let operationId := request.operation.id
  let candidates := candidates request state
  let rolePermissions := rolePermissions request state
  let matched := selectAuthority dates now request state
  let unmatched := matched.grant = none ∧ matched.rolePermission = none
  denyIf (consultsGrants request ∧ candidates = [] ∧ rolePermissions = []) .noGrant
    s!"Principal {request.principal.identity.id} has no grant for {operationId}."
  denyIf (unmatched ∧ candidates = [] ∧ rolePermissions ≠ []) .scopeEmpty
    s!"Every role permission for {operationId} excludes the requested target."
  denyIf (unmatched ∧ candidates.any fun candidate => truthy candidate.revokedAt) .grantRevoked
    s!"Every matching grant for {operationId} is revoked."
  denyIf (unmatched ∧ candidates.any fun candidate => isExpired dates candidate.expiresAt now) .grantExpired
    s!"Every matching grant for {operationId} is expired."
  let scope := intersectApplicationScopes (requestScopes request ++ matched.scopes)
  let reason := noneReason scope
  denyIf (scope.isNone) .scopeEmpty s!"Authority intersection is empty: {reason}."
  .ok matched

/-- A reservation in one of these states holds no use of its grant. -/
def ReservationState.isSpent : ReservationState → Bool
  | .released | .expired => true
  | _ => false

/-- The earlier reservation of the same use; the lookup does not read its state. -/
def sameRetry :
    Option GrantReservation :=
  state.reservations.find? fun candidate =>
    candidate.grantId = grant.id ∧ some candidate.idempotencyKey = request.idempotencyKey ∧
      candidate.operationId = request.operation.id ∧ some candidate.targetDigest = request.targetDigest

def heldReservations (grantId : String) (reservations : List GrantReservation) : List GrantReservation :=
  reservations.filter fun candidate => candidate.grantId = grantId ∧ ¬ candidate.state.isSpent

def namesUse : Bool :=
  truthy request.idempotencyKey && truthy request.commandId && truthy request.targetDigest

inductive UsePlan where
  | unbounded
  | retry (reservation : GrantReservation)
  | fresh (grant : GrantRecord)
  | exhausted (grant : GrantRecord)

def planUse :
    Except AuthorityError UsePlan :=
  match matched.grant with
  | none => .ok .unbounded
  | some grant =>
    match grant.maximumUses with
    | none => .ok .unbounded
    | some maximumUses => do
      refuseIf (¬ namesUse request) .reservationRequired
        s!"Bounded grant {grant.id} requires idempotencyKey, commandId, and targetDigest."
      match sameRetry request grant state with
      | some reservation => .ok (.retry reservation)
      | none =>
        if (heldReservations grant.id state.reservations).length ≥ maximumUses then .ok (.exhausted grant)
        else .ok (.fresh grant)

def newReservation (id : String) : GrantReservation where
  id := id
  grantId := grant.id
  idempotencyKey := request.idempotencyKey.getD ""
  commandId := request.commandId.getD ""
  operationId := request.operation.id
  targetDigest := request.targetDigest.getD ""
  authorityRevision := request.principal.authorityRevision
  state := .reserved
  reservedAt := dates.toISOString now
  updatedAt := dates.toISOString now
  uncertainEffect := false

def reserve :
    AuthorityProgram GrantReservation := do
  let id ← Calls.id
  let reservation := newReservation dates now request grant id
  Calls.putReservation reservation
  audit dates now .grantReserved request.principal.authorityRevision
    { principal := some request.principal.identity
      operationId := some request.operation.id
      targetDigest := request.targetDigest
      details := [("grantId", .text grant.id), ("reservationId", .text reservation.id)] }
  pure reservation

variable (receipt : AuthorizationReceipt) (catalog : OperationCatalog) (boundary : AuthorizationBoundary)
  (reservation : Option GrantReservation)

def authorizationReceipt (id : String) :
    AuthorizationReceipt where
  id := id
  application := request.application
  operationId := request.operation.id
  operationVersion := request.operation.version
  catalogRevision := request.catalog.revision
  authorityRevision := request.principal.authorityRevision
  principal := request.principal
  trustedContextDigest := request.trustedContextDigest
  matchedPermissionIds := distinctValues ((whenTruthy (matched.grant.bind GrantRecord.permissionId)).toList ++
      (matched.rolePermission.map PermissionRecord.id).toList)
  matchedGrantIds := (matched.grant.map GrantRecord.id).toList
  inputDigest := request.inputDigest
  target := request.target
  scopeEvidence := request.scopeEvidence.getD []
  audience := request.audience
  transport := request.transport
  admittedAt := dates.toISOString now
  expiresAt := whenTruthy request.principal.expiresAt
  reservationId := reservation.map GrantReservation.id

/-- An admitted command references the catalog it was admitted under. -/
def referenceEnvelope : AuthorityProgram Unit :=
  if truthy request.commandId then
    Calls.putCatalogReference request.catalog.revision .envelope (request.commandId.getD "") [request.operation.id]
  else pure ()

def issueReceipt :
    AuthorityProgram AuthorizationResult := do
  let id ← Calls.id
  let receipt := authorizationReceipt dates now request matched reservation id
  referenceEnvelope request
  audit dates now .authorizationAllowed request.principal.authorityRevision
    { principal := some request.principal.identity
      operationId := some request.operation.id
      targetDigest := request.targetDigest
      details := [("receiptId", .text receipt.id), ("grantIds", .texts receipt.matchedGrantIds)] }
  pure (.allowed receipt reservation)

def denyAuthorization (denial : Denial) :
    AuthorityProgram AuthorizationResult := do
  audit dates now .authorizationDenied request.principal.authorityRevision
    { principal := some request.principal.identity
      operationId := some request.operation.id
      targetDigest := request.targetDigest
      details := [("code", .text (toString denial.code)), ("audience", .text request.audience),
        ("transport", .text (toString request.transport))] }
  pure (.denied denial)

def settleUse (plan : UsePlan) : AuthorityProgram AuthorizationResult :=
  match plan with
  | .unbounded => issueReceipt dates now request matched none
  | .retry reservation => issueReceipt dates now request matched (some reservation)
  | .fresh grant => do
    let reservation ← reserve dates now request grant
    issueReceipt dates now request matched (some reservation)
  | .exhausted grant => denyAuthorization dates now request
      ⟨.grantExhausted, s!"Grant {grant.id} has no remaining uses."⟩

def authorize :
    AuthorityProgram AuthorizationResult :=
  match admission request with
  | .error denial => denyAuthorization dates now request denial
  | .ok _ => do
    let state ← Calls.snapshot
    match matchAuthority dates now request state with
    | .error denial => denyAuthorization dates now request denial
    | .ok matched => do
      let plan ← check (planUse request matched state)
      settleUse dates now request matched plan

/-! ### Transitions of a reservation -/

def allowedTransitions : ReservationState → List ReservationState
  | .reserved => [.consumed, .released, .expired]
  | .consumed => [.outcomePending]
  | .outcomePending => [.outcomeVerified, .outcomeFailed]
  | .outcomeVerified => []
  | .outcomeFailed => []
  | .released => []
  | .expired => []

def assertReservationTransition (current next : ReservationState) : Except AuthorityError Unit :=
  if current = next then .ok ()
  else refuseIf (next ∉ allowedTransitions current) .invalidReservationTransition
    s!"Reservation cannot transition from {current} to {next}."

def transitionReservation (reservationId : String) (next : ReservationState)
    (uncertainEffect : Option Bool) : AuthorityProgram GrantReservation := do
  let state ← Calls.snapshot
  let reservation ← check (found (state.reservations.find? fun candidate => candidate.id = reservationId)
    .reservationNotFound s!"Reservation {reservationId} does not exist.")
  check (assertReservationTransition reservation.state next)
  let updated := { reservation with
    state := next
    updatedAt := dates.toISOString now
    uncertainEffect := uncertainEffect.getD reservation.uncertainEffect }
  Calls.putReservation updated
  pure updated

/-! ### Revalidation of a receipt -/

def revalidateGrant (state : AuthoritySnapshot) (grantId : String) :
    Except Denial Unit := do
  let grant := state.grants.find? fun candidate => candidate.id = grantId
  denyIf (grant.all fun grant => truthy grant.revokedAt) .grantRevoked
    s!"Receipt {receipt.id} grant {grantId} is unavailable before {boundary}."
  denyIf (isExpired dates (grant.bind GrantRecord.expiresAt) now) .grantExpired
    s!"Receipt {receipt.id} grant {grantId} expired before {boundary}."

def revalidateGrants (dates : Dates) (now : Int) (receipt : AuthorizationReceipt)
    (boundary : AuthorizationBoundary) (state : AuthoritySnapshot) : List String → Except Denial Unit
  | [] => .ok ()
  | grantId :: rest => do
    revalidateGrant dates now receipt boundary state grantId
    revalidateGrants dates now receipt boundary state rest

variable (trustedContextDigest : String)

def revalidateBoundary (state : AuthoritySnapshot) :
    Except Denial Unit := do
  denyIf (receipt.trustedContextDigest ≠ trustedContextDigest ∨
      receipt.principal.trustedContextDigest ≠ trustedContextDigest) .contextMismatch
    s!"Receipt {receipt.id} trusted context changed before {boundary}."
  denyIf (isExpired dates (receipt.expiresAt <|> receipt.principal.expiresAt) now) .grantExpired
    s!"Receipt {receipt.id} expired before {boundary}."
  revalidateGrants dates now receipt boundary state receipt.matchedGrantIds

/-- The operation a receipt was issued for, in the catalog presented with it. -/
def receiptOperation :
    Except Denial OperationDescriptor := do
  denyIf (catalog.revision ≠ receipt.catalogRevision ∨ (catalog.state ≠ .active ∧ catalog.state ≠ .draining))
    .catalogInactive s!"Receipt {receipt.id} references unavailable catalog {receipt.catalogRevision}."
  match catalog.operations.find? fun candidate =>
      candidate.id = receipt.operationId ∧ candidate.version = receipt.operationVersion with
  | some operation => .ok operation
  | none => .error ⟨.operationMismatch, s!"Receipt {receipt.id} references an unknown operation version."⟩

def revalidateReceipt :
    AuthorityProgram AuthorizationResult :=
  match receiptOperation receipt catalog with
  | .error denial => pure (.denied denial)
  | .ok operation =>
    if boundary ∉ operation.authority.checks then pure (.allowed receipt none)
    else do
      let state ← Calls.snapshot
      match revalidateBoundary dates now receipt boundary trustedContextDigest state with
      | .error denial => pure (.denied denial)
      | .ok _ => pure (.allowed receipt none)

end Applik8s.Authority
