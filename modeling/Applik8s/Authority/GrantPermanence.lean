import Applik8s.Authority.GrantWriters
import Applik8s.Authority.ReservationProofs

/-! What becomes of a stored grant over a run. Assignments, revocations and migrations
only ever continue the record under an id. Decisions, bootstraps, break-glass roles and
manifests write under ids of their caller's choosing without comparing the record that
stands there: a run keeps its grants as long as those steps reuse no id for another
grant. -/
namespace Applik8s.Authority
open Lib (Table runFrom EachStep relates_of_steps)
variable {dates : Dates} {now : Int} {before : World} {earlier later : Table GrantRecord} {grant record : GrantRecord}

/-- A later record of the same grant: who holds it, where it comes from and what it
derives from are unchanged, and a revocation stands. -/
structure Continued (earlier later : GrantRecord) : Prop where
  id : later.id = earlier.id
  identity : later.identity = earlier.identity
  origin : later.origin = earlier.origin
  permissionId : later.permissionId = earlier.permissionId
  revoked : truthy earlier.revokedAt = true → truthy later.revokedAt = true

/-- Every grant is still stored, as a continuation of itself. -/
def GrantsContinued (earlier later : Table GrantRecord) : Prop :=
  ∀ grant ∈ earlier.rows, ∃ record ∈ later.rows, Continued grant record

/-- Whatever is stored under the grant's id, the grant continues it. -/
def FitsStored (grants : Table GrantRecord) (grant : GrantRecord) : Prop :=
  ∀ stored ∈ grants.rows, stored.id = grant.id → Continued stored grant

/-- The application grants stored under a declared grant's id are continued by it. -/
def FitsDeclared (grants : Table GrantRecord) (declared : List GrantRecord) : Prop :=
  ∀ grant ∈ declared, ∀ stored ∈ grants.rows, stored.origin = .application → stored.id = grant.id →
    Continued stored grant

/-- A step that reuses the id of a stored grant only to continue that grant. -/
def ReusesIdsSafely (dates : Dates) (before : World) (submission : Submission) : Prop :=
  match submission.operation with
  | .decideGrantRequest requestId decision => ∀ grant,
      Decides dates submission.now before.repository requestId decision grant →
        FitsStored before.repository.grants grant
  | .bootstrapDeclaredRole bootstrap _ => ∀ grant, Bootstraps dates submission.now before.repository bootstrap grant →
        FitsStored before.repository.grants grant
  | .bootstrapRole request => ∀ grant, Bootstraps dates submission.now before.repository request.definition grant →
        FitsStored before.repository.grants grant
  | .assignBreakGlassRole request => ∀ grant, BreaksGlass dates submission.now before.repository request grant →
        FitsStored before.repository.grants grant
  | .reconcileApplicationAuthority manifest => FitsDeclared before.repository.grants manifest.grants
  | .reconcileStaticAuthorityManifest manifest catalogRevision =>
      FitsDeclared before.repository.grants (manifest.records catalogRevision
        (dates.toISOString submission.now) before.repository.snapshot).grants
  | _ => True

theorem Continued.refl (grant : GrantRecord) : Continued grant grant :=
  ⟨rfl, rfl, rfl, rfl, fun revoked => revoked⟩

theorem Continued.trans (earlier : Continued first second) (later : Continued second third) : Continued first third :=
  ⟨later.id.trans earlier.id, later.identity.trans earlier.identity, later.origin.trans earlier.origin,
    later.permissionId.trans earlier.permissionId, fun revoked => later.revoked (earlier.revoked revoked)⟩

theorem GrantsContinued.refl (grants : Table GrantRecord) : GrantsContinued grants grants :=
  fun grant member => ⟨grant, member, Continued.refl grant⟩

theorem GrantsContinued.trans (first : GrantsContinued earlier middle) (second : GrantsContinued middle later) :
    GrantsContinued earlier later := by
  intro grant member
  obtain ⟨record, stored, continued⟩ := first grant member
  obtain ⟨last, present, further⟩ := second record stored
  exact ⟨last, present, continued.trans further⟩

theorem GrantsContinued.put (kept : GrantsContinued earlier middle) (fits : FitsStored earlier record) :
    GrantsContinued earlier (middle.put record) := by
  intro grant member
  obtain ⟨cur, stored, continued⟩ := kept grant member
  by_cases same : cur.id = record.id
  · exact ⟨record, Table.mem_put.mpr (Or.inl rfl), fits grant member (continued.id.symm.trans same)⟩
  · exact ⟨cur, Table.mem_put.mpr (Or.inr ⟨stored, same⟩), continued⟩

theorem fitsStored_of_continued (kept : GrantsContinued earlier middle) (stored : grant ∈ middle.rows)
    (continued : Continued grant record) : FitsStored earlier record := by
  intro first member same
  obtain ⟨cur, present, since⟩ := kept first member
  have whole : cur = grant :=
    Table.eq_of_key_eq present stored (since.id.trans (same.trans continued.id))
  subst whole
  exact since.trans continued

private theorem fitsStored_of_reconciles (fits : FitsDeclared before.repository.grants declared)
    (kept : GrantsContinued before.repository.grants middle)
    (reconciles : Reconciles dates now before.repository declared middle record) :
    FitsStored before.repository.grants record := by
  rcases reconciles with ⟨listed, _, shadows⟩ | ⟨_, member, _, _, _, rfl⟩
  · intro first member same
    obtain ⟨cur, present, since⟩ := kept first member
    have app : cur.origin = .application := shadows cur present (since.id.trans same)
    exact fits record listed first member (since.origin.symm.trans app) same
  · refine fitsStored_of_continued (GrantsContinued.refl _) member ?_
    exact ⟨rfl, rfl, rfl, rfl, fun _ => dates.truthy_toISOString now⟩

theorem fitsStored_of_mayStore (safe : ReusesIdsSafely dates before submission)
    (kept : GrantsContinued before.repository.grants middle)
    (allowed : MayStore dates before.repository submission middle record) :
    FitsStored before.repository.grants record := by
  obtain ⟨now, op⟩ := submission
  cases op with
  | assignGrant =>
    obtain ⟨rfl, fresh⟩ := allowed
    exact fun stored member same => absurd same (fresh stored member)
  | decideGrantRequest => exact safe record allowed
  | bootstrapDeclaredRole => exact safe record allowed
  | bootstrapRole => exact safe record allowed
  | assignBreakGlassRole => exact safe record allowed
  | reconcileApplicationAuthority => exact fitsStored_of_reconciles safe kept allowed
  | reconcileStaticAuthorityManifest => exact fitsStored_of_reconciles safe kept allowed
  | revokeGrant =>
    obtain ⟨stored, member, _, _, rfl⟩ := allowed
    exact fitsStored_of_continued kept member ⟨rfl, rfl, rfl, rfl, fun _ => dates.truthy_toISOString now⟩
  | revokeRoleForIdentity =>
    obtain ⟨stored, member, _, _, rfl⟩ := allowed
    exact fitsStored_of_continued kept member ⟨rfl, rfl, rfl, rfl, fun _ => dates.truthy_toISOString now⟩
  | migrateCatalogAuthority =>
    obtain ⟨stored, member, _, _, _, rfl⟩ := allowed
    exact fitsStored_of_continued kept member ⟨rfl, rfl, rfl, rfl, id⟩
  | migrateGrantCatalog =>
    obtain ⟨_, member, _, _, _, rfl⟩ := allowed
    exact fitsStored_of_continued kept member ⟨rfl, rfl, rfl, rfl, id⟩
  | _ => exact allowed.elim

theorem grantsContinued_step (submission : Submission) (safe : ReusesIdsSafely dates before submission) :
    GrantsContinued before.repository.grants (advance dates before submission).repository.grants := by
  have writes := advance_stored dates before submission
  have kept : GrantsContinued before.repository.grants before.repository.grants := GrantsContinued.refl _
  exact writes.keeps _ (fun grants grant allowed held => held.put (fitsStored_of_mayStore safe held allowed)) kept

theorem matched_grants_live (allowed : authorization dates now before req = some (.allowed receipt resv))
    (listed : grantId ∈ receipt.matchedGrantIds) :
    ∃ grant ∈ before.repository.grants.rows, grant.id = grantId ∧ isLive dates now grant = true := by
  rcases authorize_ok (authorization_eq_some.mp allowed) with ⟨_, denied, _⟩ | ⟨_, _, _, _, _, _, issued⟩
  · cases denied
  cases issued
  have selected : ∃ grant, (selectAuthority dates now req before.repository.snapshot).grant = some grant ∧
      grant.id = grantId := by
    simpa [authorizationReceipt] using listed
  obtain ⟨grant, chosen, named⟩ := selected
  exact ⟨grant, mem_of_selected chosen, named, List.find?_some chosen⟩

/-- In every run whose steps reuse ids safely, every grant keeps its holder, its origin
and its permission, a revoked grant stays revoked, and no authorization rests on a grant
that was revoked before. -/
theorem grants_continue_over_runs (dates : Dates) (start : World) (labels : List Submission)
    (safe : EachStep (advance dates) (ReusesIdsSafely dates) start labels) :
    GrantsContinued start.repository.grants (runFrom (advance dates) start labels).repository.grants ∧
      ∀ now request receipt reservation, authorization dates now (runFrom (advance dates) start labels) request =
          some (.allowed receipt reservation) →
        ∀ grant ∈ start.repository.grants.rows, truthy grant.revokedAt = true →
          grant.id ∉ receipt.matchedGrantIds := by
  have continued : GrantsContinued start.repository.grants
      (runFrom (advance dates) start labels).repository.grants := by
    refine relates_of_steps
      (fun first second : World => GrantsContinued first.repository.grants second.repository.grants)
      (fun _ => GrantsContinued.refl _) (fun first second => first.trans second)
      (fun _ submission met => grantsContinued_step submission met) safe
  refine ⟨continued, ?_⟩
  intro now request receipt reservation allowed grant member revoked listed
  obtain ⟨current, stored, since⟩ := continued grant member
  obtain ⟨matched, present, named, live⟩ := matched_grants_live allowed listed
  have whole : current = matched := Table.eq_of_key_eq stored present (since.id.trans named.symm)
  subst whole
  simp [isLive, since.revoked revoked] at live

def clerkRequest : GrantRequestRecord where
  id := "request"
  requester := sampleIdentity "clerk"
  operationIds := ["orders.update"]
  scope := .all
  reason := "orders"
  approvalPolicyId := "policy"
  state := .pending
  createdAt := sampleTime

/-- An approval of that request with a grant for the clerk under the given id. -/
def clerkDecision (grantId : String) : GrantDecision where
  approval :=
    { id := "approval", requestId := "request", approver := sampleIdentity "owner", decision := .approve
      decidedAt := sampleTime }
  grant := some (sampleGrant grantId "clerk")

def ownerWorld : World := sampleWorld (sampleRepository [samplePermission] [] [ownerGrant])

def revokedRun : List Submission :=
  [⟨sampleInstant, .assignGrant (sampleGrant "clerk-orders" "clerk")⟩,
    ⟨sampleInstant, .revokeGrant "clerk-orders" "left"⟩]

theorem grants_continue_after_revocation :
    GrantsContinued (runFrom (advance utcDates) ownerWorld revokedRun).repository.grants
      (runFrom (advance utcDates) (runFrom (advance utcDates) ownerWorld revokedRun)
        [⟨sampleInstant, .requestGrant clerkRequest⟩,
          ⟨sampleInstant, .assignGrant (sampleGrant "clerk-orders" "clerk")⟩]).repository.grants :=
  (grants_continue_over_runs utcDates (runFrom (advance utcDates) ownerWorld revokedRun)
    [⟨sampleInstant, .requestGrant clerkRequest⟩,
      ⟨sampleInstant, .assignGrant (sampleGrant "clerk-orders" "clerk")⟩] ⟨trivial, trivial, trivial⟩).1

/-- An approval that names the id of a revoked grant brings the grant back. -/
theorem approval_revives_a_revoked_grant : ¬ ∀ (dates : Dates) (start : World) (labels : List Submission),
      GrantsContinued start.repository.grants (runFrom (advance dates) start labels).repository.grants := by
  intro claimed
  obtain ⟨record, stored, continued⟩ := claimed utcDates (runFrom (advance utcDates) ownerWorld revokedRun)
    [⟨sampleInstant, .requestGrant clerkRequest⟩,
      ⟨sampleInstant, .decideGrantRequest "request" (clerkDecision "clerk-orders")⟩]
    { sampleGrant "clerk-orders" "clerk" with
      revokedAt := some (utcDates.toISOString sampleInstant), reason := some "left" } (by decide +kernel)
  have unrevoked : ∀ record ∈ (runFrom (advance utcDates) (runFrom (advance utcDates) ownerWorld revokedRun)
      [⟨sampleInstant, .requestGrant clerkRequest⟩, ⟨sampleInstant, .decideGrantRequest "request"
          (clerkDecision "clerk-orders")⟩]).repository.grants.rows, truthy record.revokedAt = false := by
    decide +kernel
  have revoked := continued.revoked (utcDates.truthy_toISOString sampleInstant)
  rw [unrevoked record stored] at revoked
  cases revoked

end Applik8s.Authority
