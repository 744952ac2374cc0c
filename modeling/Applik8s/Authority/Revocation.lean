import Applik8s.Authority.Grants

/-! Revocation tombstones: the external obligations that must be neutralized before an
application's authority may be torn down. -/
namespace Applik8s.Authority
open Lib.Program (check)

def createRevocationTombstone (record : RevocationTombstone) : AuthorityProgram RevocationTombstone := do
  check (refuseIf (truthy record.provenAt ∨ truthy record.transferredByBreakGlassAt)
    .revocationInvalidState s!"New revocation tombstone {record.id} cannot already be completed.")
  check (refuseIf (record.obligations = []) .revocationInvalidState
    s!"Revocation tombstone {record.id} requires at least one external neutralization obligation.")
  check (validateScopeOrThrow record.scope s!"tombstones.{record.id}.scope")
  let state ← Calls.snapshot
  match state.tombstones.find? fun candidate => candidate.id = record.id with
  | some existing => do
    check (refuseIf (existing ≠ record) .revocationConflict
      s!"Revocation tombstone {record.id} already exists with different obligations.")
    pure existing
  | none => do
    Calls.putTombstone record
    pure record

inductive ObservedState where
  | neutralized | expiryGuaranteed | failed
  deriving DecidableEq

def ObservedState.obligationState : ObservedState → ObligationState
  | .neutralized => .neutralized
  | .expiryGuaranteed => .expiryGuaranteed
  | .failed => .failed

structure RevocationObservation where
  state : ObservedState
  providerRevision : Option String := none
  observedAt : String
  guaranteedExpiryAt : Option String := none
  diagnostic : Option String := none

variable (obligation : RevocationObligation)

/-- `{ ...obligation, ...observation }`: a field the observation lacks is kept. -/
def RevocationObligation.observed (observation : RevocationObservation) : RevocationObligation :=
  { obligation with
    state := observation.state.obligationState
    providerRevision := observation.providerRevision <|> obligation.providerRevision
    observedAt := some observation.observedAt
    guaranteedExpiryAt := observation.guaranteedExpiryAt <|> obligation.guaranteedExpiryAt
    diagnostic := observation.diagnostic <|> obligation.diagnostic }

def RevocationObligation.isComplete : Bool :=
  obligation.state = .neutralized || (obligation.state = .expiryGuaranteed && obligation.guaranteedExpiryAt.isSome)

/-- The tombstone after an observation of one projection. -/
def RevocationTombstone.observed (tombstone : RevocationTombstone) (projection : String)
    (observation : RevocationObservation) (observedAt : String) : RevocationTombstone :=
  let obligations := tombstone.obligations.map fun candidate =>
    if candidate.projection = projection then candidate.observed observation else candidate
  { tombstone with
    obligations
    provenAt := if obligations.all RevocationObligation.isComplete then some observedAt
      else tombstone.provenAt }

variable (application : String) (dates : Dates)

def observeRevocationObligation (now : Int) (tombstoneId projection : String)
    (observation : RevocationObservation) : AuthorityProgram RevocationTombstone := do
  let state ← Calls.snapshot
  let tombstone ← check (found (state.tombstones.find? fun candidate => candidate.id = tombstoneId)
    .revocationUnavailable s!"Revocation tombstone {tombstoneId} does not exist.")
  if truthy tombstone.provenAt || truthy tombstone.transferredByBreakGlassAt then pure tombstone
  else do
    check (refuseIf (projection ∉ tombstone.obligations.map RevocationObligation.projection)
      .revocationUnavailable s!"Revocation tombstone {tombstoneId} has no {projection} obligation.")
    check (refuseIf (observation.state = .expiryGuaranteed ∧ ¬ truthy observation.guaranteedExpiryAt)
      .revocationInvalidState s!"Expiry-guaranteed obligation {projection} requires guaranteedExpiryAt.")
    let updated := tombstone.observed projection observation (dates.toISOString now)
    let complete := updated.obligations.all RevocationObligation.isComplete
    Calls.putTombstone updated
    audit dates now (if complete then .revocationProven else .revocationObligationNeutralized)
      tombstone.authorityRevision
      { details := [("tombstoneId", .text tombstoneId), ("projection", .text projection),
          ("state", .text (toString observation.state.obligationState))] }
    pure updated

def transferRevocationByBreakGlass (now : Int) (tombstoneId : String)
    (principal : IdentityReference) (acknowledgement : String) : AuthorityProgram RevocationTombstone := do
  check (refuseIf (blank acknowledgement) .breakGlassAcknowledgementRequired
    "Break-glass authority transfer requires an explicit acknowledgement.")
  let state ← Calls.snapshot
  let tombstone ← check (found (state.tombstones.find? fun candidate => candidate.id = tombstoneId)
    .revocationUnavailable s!"Revocation tombstone {tombstoneId} does not exist.")
  if truthy tombstone.provenAt then pure tombstone
  else do
    let updated := { tombstone with
      transferredByBreakGlassAt := some (dates.toISOString now)
      auditProvenance := tombstone.auditProvenance ++ [acknowledgement] }
    Calls.putTombstone updated
    audit dates now .breakGlass tombstone.authorityRevision
      { principal := some principal
        details := [("tombstoneId", .text tombstoneId), ("acknowledgement", .text acknowledgement)] }
    pure updated

variable (state : AuthoritySnapshot)

/-- The tombstones of an application that are neither proven nor transferred. -/
def pendingTombstones : List RevocationTombstone :=
  state.tombstones.filter fun tombstone =>
    tombstone.application = application ∧ ¬ truthy tombstone.provenAt ∧ ¬ truthy tombstone.transferredByBreakGlassAt

/-- What `assertAuthorityTeardownSafe` makes of the snapshot it reads. -/
def assertAuthorityTeardownSafe :
    Except AuthorityError Unit :=
  let pending := pendingTombstones application state
  let count := pending.length
  let listed := join ", " (pending.map RevocationTombstone.id)
  refuseIf (pending ≠ []) .revocationPending
    s!"Application {application} retains {count} unproven revocation tombstone(s): {listed}."

end Applik8s.Authority
