import Mathlib.Data.Fintype.EquivFin
import Applik8s.Authority.Effects
import Applik8s.Authority.ScopeProofs

/-! Whether a runtime grant can authorize more than the authority it was issued from.

Validation compares a grant with its permission and with its issuer's own grant.
Operations and scopes are compared in full. A list of audiences or transports that the
grant leaves out is compared as an empty list although it means no restriction, and an
expiry is compared only when both sides have one, as texts. The grant is attenuated
exactly when none of these gaps is used. -/
namespace Applik8s.Authority
variable (dates : Dates) (grant : GrantRecord) (permission : PermissionRecord) (issuer : GrantRecord)
  (operationId : OperationId) (audience : String) (transport : OperationTransport)

/-- Authorization would take the grant as a live candidate for this use. -/
def GrantRecord.Accepts (instant : Int) : Prop :=
  operationId ∈ grant.operationIds ∧ admits grant.audiences audience = true ∧
    admits grant.transports transport = true ∧ isLive dates instant grant = true

def GrantRecord.Covers (instant : Int) : Prop :=
  operationId ∈ issuer.operationIds ∧ admits issuer.audiences audience = true ∧
    admits issuer.transports transport = true ∧ isExpired dates issuer.expiresAt instant = false

def PermissionRecord.Covers : Prop :=
  operationId ∈ permission.operationIds ∧ admits permission.audiences audience = true ∧
    admits permission.transports transport = true

/-- Nothing the grant accepts lies outside its permission or its issuer's grant. -/
def Attenuates : Prop :=
  ∀ operationId audience transport instant, grant.Accepts dates operationId audience transport instant →
    permission.Covers operationId audience transport ∧ issuer.Covers dates operationId audience transport instant

def Inert : Prop :=
  truthy grant.revokedAt = true ∨ grant.audiences = some [] ∨ grant.transports = some []

/-- The grant restricts what its parents restrict: it lists audiences and transports
where one of them does, and expires no later than its issuer. -/
structure Unwidened (dates : Dates) (grant : GrantRecord) (permission : PermissionRecord)
    (issuer : GrantRecord) : Prop where
  audiences : grant.audiences = none → permission.audiences = none ∧ issuer.audiences = none
  transports : grant.transports = none → ∀ transport,
    admits permission.transports transport = true ∧ admits issuer.transports transport = true
  expiry : ∀ limit, issuer.expiresAt.bind dates.parse = some limit →
    ∃ expiry, grant.expiresAt.bind dates.parse = some expiry ∧ expiry ≤ limit

structure NoBroader (grant : GrantRecord) (operationIds : List OperationId)
    (audiences : Option (List String)) (transports : Option (List OperationTransport))
    (scope : ScopeExpression) : Prop where
  operations : ∀ operationId ∈ grant.operationIds, operationId ∈ operationIds
  audiences : ∀ audience ∈ grant.audiences.getD [], audience ∈ (audiences <|> grant.audiences).getD []
  transports : ∀ transport ∈ grant.transports.getD [], transport ∈ (transports <|> grant.transports).getD []
  scope : isProvableScopeSubset (normalizeApplicationScope grant.scope) (normalizeApplicationScope scope) = true

variable {dates : Dates} {now : Int} {grant issuer : GrantRecord} {permission : PermissionRecord}

private theorem validateAgainstPermission_ok (valid : validateAgainstPermission grant (some permission) true = .ok ()) :
    NoBroader grant permission.operationIds permission.audiences permission.transports permission.scope := by
  simp only [validateAgainstPermission, checks_ok, refuseIf_ok, assertSubset_ok, assertScopeNotBroader_ok] at valid
  obtain ⟨_, _, _, ops, _, scope, _, audiences, _, transports, _⟩ := valid
  exact ⟨ops, audiences, transports, scope⟩

private theorem validateIssuer_ok (valid : validateIssuer dates now grant (some permission) state = .ok ()) :
    ∃ issuer, issuerGrantFor dates now grant permission state = some issuer ∧
      NoBroader grant issuer.operationIds issuer.audiences issuer.transports issuer.scope := by
  simp only [validateIssuer, checks_ok, refuseIf_ok, found_ok, assertSubset_ok, assertScopeNotBroader_ok] at valid
  obtain ⟨_, same, issuer, selected, _, ops, _, scope, _, audiences, _, transports, _⟩ := valid
  cases same
  exact ⟨issuer, selected, ops, audiences, transports, scope⟩

/-- A runtime grant that passes validation names a permission, has an issuer's grant
behind it, and was compared with both. -/
theorem validateGrant_runtime_ok (valid : validateGrant dates now grant state true = .ok ()) :
    ∃ permission issuer, permissionNamed grant.permissionId state = some permission ∧
      issuerGrantFor dates now grant permission state = some issuer ∧ grant.operationIds ≠ [] ∧
      NoBroader grant permission.operationIds permission.audiences permission.transports permission.scope ∧
      NoBroader grant issuer.operationIds issuer.audiences issuer.transports issuer.scope := by
  simp only [validateGrant, checks_ok, refuseIf_ok, if_true] at valid
  obtain ⟨_, _, _, _, _, nonempty, _, _, _, _, _, against, _, issued, _⟩ := valid
  cases named : permissionNamed grant.permissionId state with
  | none => simp [named, validateIssuer, found, bind, Except.bind] at issued
  | some permission =>
    rw [named] at against issued
    obtain ⟨issuer, selected, bounded⟩ := validateIssuer_ok issued
    exact ⟨permission, issuer, rfl, selected, nonempty, validateAgainstPermission_ok against, bounded⟩

theorem NoBroader.denotes_subset {audiences : Option (List String)} {transports : Option (List OperationTransport)}
    {scope : ScopeExpression} (bounded : NoBroader grant opIds audiences transports scope) :
    denotation grant.scope ⊆ denotation scope := by
  intro valuation holds
  have normalized := (satisfies_normalize grant.scope).mpr holds
  exact (satisfies_normalize scope).mp (satisfies_of_provableSubset _ _ bounded.scope normalized)

private theorem admits_of_given {τ : Type} [DecidableEq τ] {given limit : Option (List τ)} {item : τ}
    (compared : ∀ item ∈ given.getD [], item ∈ (limit <|> given).getD [])
    (present : given ≠ none) (admitted : admits given item = true) : admits limit item = true := by
  cases limit with
  | none => rfl
  | some bound =>
    cases given with
    | none => exact absurd rfl present
    | some listed =>
      have inside : item ∈ listed := by simpa [admits] using admitted
      have bounded : item ∈ bound := by simpa using compared item inside
      simpa [admits] using bounded

private theorem exists_audience_outside (listed : List String) : ∃ audience, audience ∉ listed := by
  obtain ⟨audience, outside⟩ := Infinite.exists_notMem_finset listed.toFinset
  exact ⟨audience, by simpa using outside⟩

private theorem eq_none_of_admits_all {limit : Option (List String)}
    (all : ∀ audience, admits limit audience = true) : limit = none := by
  cases limit with
  | none => rfl
  | some listed =>
    obtain ⟨audience, outside⟩ := exists_audience_outside listed
    have inside := all audience
    simp [admits, outside] at inside

theorem exists_admitted {τ : Type} [DecidableEq τ] [Inhabited τ] {listed : Option (List τ)}
    (some_left : listed ≠ some []) : ∃ item, admits listed item = true := by
  cases listed with
  | none => exact ⟨default, rfl⟩
  | some items =>
    cases items with
    | nil => exact absurd rfl some_left
    | cons first rest => exact ⟨first, by simp [admits]⟩

theorem exists_unexpired (dates : Dates) (expiresAt : Option String) :
    ∃ instant, isExpired dates expiresAt instant = false := by
  unfold isExpired
  cases expiresAt.bind dates.parse with
  | none => exact ⟨0, rfl⟩
  | some expiry => exact ⟨expiry - 1, decide_eq_false (by omega)⟩

theorem isLive_iff : isLive dates instant grant = true ↔
      truthy grant.revokedAt = false ∧ isExpired dates grant.expiresAt instant = false := by
  simp [isLive]

theorem unexpired_mono_iff :
    (∀ instant, isExpired dates expiresAt instant = false → isExpired dates limit instant = false) ↔
      ∀ bound, limit.bind dates.parse = some bound →
        ∃ expiry, expiresAt.bind dates.parse = some expiry ∧ expiry ≤ bound := by
  unfold isExpired
  constructor
  · intro outlived bound parsed
    have atBound := outlived bound
    rw [parsed] at atBound
    cases own : expiresAt.bind dates.parse with
    | none => simp [own] at atBound
    | some expiry => exact ⟨expiry, rfl, by simpa [own] using atBound⟩
  intro ordered instant alive
  cases parsed : limit.bind dates.parse with
  | none => rfl
  | some bound =>
    obtain ⟨_, own, _⟩ := ordered bound parsed
    simp only [own, decide_eq_false_iff_not, not_le] at alive ⊢
    omega

instance : Inhabited OperationTransport := ⟨.direct⟩

/-- A grant compared with its parents is attenuated exactly when it accepts nothing or
leaves none of the gaps open. -/
theorem attenuates_iff (nonempty : grant.operationIds ≠ [])
    (underPermission : NoBroader grant permission.operationIds permission.audiences
      permission.transports permission.scope)
    (underIssuer : NoBroader grant issuer.operationIds issuer.audiences issuer.transports issuer.scope) :
    Attenuates dates grant permission issuer ↔ Inert grant ∨ Unwidened dates grant permission issuer := by
  constructor
  · intro attenuates
    by_cases inert : Inert grant
    · exact Or.inl inert
    right
    unfold Inert at inert
    push Not at inert
    obtain ⟨active, audiencesLeft, transportsLeft⟩ := inert
    have unrevoked : truthy grant.revokedAt = false := by simpa using active
    obtain ⟨operationId, op⟩ := List.exists_mem_of_ne_nil _ nonempty
    obtain ⟨audience, audienceOk⟩ : ∃ audience, admits grant.audiences audience = true :=
      exists_admitted audiencesLeft
    obtain ⟨transport, transportOk⟩ := exists_admitted transportsLeft
    obtain ⟨instant, alive⟩ := exists_unexpired dates grant.expiresAt
    have live := isLive_iff.mpr ⟨unrevoked, alive⟩
    refine ⟨fun open_ => ?_, fun open_ other => ?_, ?_⟩
    · have covered := fun other => attenuates operationId other transport instant
        ⟨op, by simp [open_, admits], transportOk, live⟩
      exact ⟨eq_none_of_admits_all fun other => (covered other).1.2.1,
        eq_none_of_admits_all fun other => (covered other).2.2.1⟩
    · have covered := attenuates operationId audience other instant ⟨op, audienceOk, by simp [open_, admits], live⟩
      exact ⟨covered.1.2.2, covered.2.2.2.1⟩
    · refine unexpired_mono_iff.mp fun later outlives => ?_
      exact (attenuates operationId audience transport later
        ⟨op, audienceOk, transportOk, isLive_iff.mpr ⟨unrevoked, outlives⟩⟩).2.2.2.2
  · rintro (inert | unwidened) _ audience transport instant ⟨op, audienceOk, transportOk, live⟩
    · obtain ⟨unrevoked, _⟩ := isLive_iff.mp live
      rcases inert with revoked | empty | empty
      · simp [revoked] at unrevoked
      · simp [empty, admits] at audienceOk
      · simp [empty, admits] at transportOk
    · obtain ⟨_, alive⟩ := isLive_iff.mp live
      have audiences : admits permission.audiences audience = true ∧ admits issuer.audiences audience = true := by
        by_cases open_ : grant.audiences = none
        · obtain ⟨first, second⟩ := unwidened.audiences open_
          simp [first, second, admits]
        · exact ⟨admits_of_given underPermission.audiences open_ audienceOk,
            admits_of_given underIssuer.audiences open_ audienceOk⟩
      have transports : admits permission.transports transport = true ∧
          admits issuer.transports transport = true := by
        by_cases open_ : grant.transports = none
        · exact unwidened.transports open_ transport
        · exact ⟨admits_of_given underPermission.transports open_ transportOk,
            admits_of_given underIssuer.transports open_ transportOk⟩
      exact ⟨⟨underPermission.operations _ op, audiences.1, transports.1⟩,
        underIssuer.operations _ op, audiences.2, transports.2,
        unexpired_mono_iff.mpr unwidened.expiry instant alive⟩

/-- A runtime grant stored by `assignGrant` never has a scope beyond its permission or its
issuer's grant, and it accepts no use beyond them exactly when it accepts nothing or
restricts what they restrict. -/
theorem assigned_runtime_grant_attenuates_iff (dates : Dates) (now : Int) (before : World) (grant : GrantRecord)
    (runtime : grant.origin = .runtime) (fresh : ∀ candidate ∈ before.repository.grants.rows, candidate.id ≠ grant.id)
    (accepted : (serve dates before ⟨now, .assignGrant grant⟩).1.isOk = true) : ∃ permission issuer,
      permissionNamed grant.permissionId before.repository.snapshot = some permission ∧
      issuerGrantFor dates now grant permission before.repository.snapshot = some issuer ∧
      denotation grant.scope ⊆ denotation permission.scope ∧ denotation grant.scope ⊆ denotation issuer.scope ∧
      (Attenuates dates grant permission issuer ↔ Inert grant ∨ Unwidened dates grant permission issuer) := by
  obtain ⟨_, _, ran⟩ := serial_transaction_isOk.mp accepted
  rcases (assignGrant_ok ran).2 with ⟨present, _⟩ | ⟨_, valid, _⟩
  · exact absurd rfl (fresh grant present)
  rw [runtime] at valid
  obtain ⟨permission, issuer, named, selected, nonempty, underPermission, underIssuer⟩ :=
    validateGrant_runtime_ok valid
  exact ⟨permission, issuer, named, selected, underPermission.denotes_subset,
    underIssuer.denotes_subset, attenuates_iff nonempty underPermission underIssuer⟩

/-- A permission and an issuer's grant for the audience `web` only. -/
def webWorld : World :=
  sampleWorld (sampleRepository [{ samplePermission with audiences := some ["web"] }] []
    [{ ownerGrant with audiences := some ["web"] }])

theorem assigned_web_grant_attenuates :
    ∃ permission issuer, permissionNamed (some "orders") webWorld.repository.snapshot = some permission ∧
      issuerGrantFor utcDates sampleInstant { sampleGrant "clerk-orders" "clerk" with audiences := some ["web"] }
        permission webWorld.repository.snapshot = some issuer ∧
      (Attenuates utcDates { sampleGrant "clerk-orders" "clerk" with audiences := some ["web"] } permission issuer ↔
        Inert { sampleGrant "clerk-orders" "clerk" with audiences := some ["web"] } ∨
          Unwidened utcDates { sampleGrant "clerk-orders" "clerk" with audiences := some ["web"] }
            permission issuer) := by
  obtain ⟨permission, issuer, named, selected, _, _, exact_⟩ :=
    assigned_runtime_grant_attenuates_iff utcDates sampleInstant webWorld
      { sampleGrant "clerk-orders" "clerk" with audiences := some ["web"] }
      (by decide) (by decide) (by decide +kernel)
  exact ⟨permission, issuer, named, selected, exact_⟩

/-- A grant without audiences, issued from a permission and a grant for `web` only, is
stored and accepts every audience. -/
theorem assigned_runtime_grant_can_widen :
    ¬ ∀ (dates : Dates) (now : Int) (before : World) (grant : GrantRecord), grant.origin = .runtime →
      (∀ candidate ∈ before.repository.grants.rows, candidate.id ≠ grant.id) →
      (serve dates before ⟨now, .assignGrant grant⟩).1.isOk = true → ∃ permission issuer,
        permissionNamed grant.permissionId before.repository.snapshot = some permission ∧
        issuerGrantFor dates now grant permission before.repository.snapshot = some issuer ∧
        denotation grant.scope ⊆ denotation permission.scope ∧
        denotation grant.scope ⊆ denotation issuer.scope ∧ Attenuates dates grant permission issuer := by
  intro claimed
  obtain ⟨permission, _, named, _, _, _, attenuates⟩ :=
    claimed utcDates sampleInstant webWorld (sampleGrant "clerk-orders" "clerk")
      (by decide) (by decide) (by decide +kernel)
  have covered := (attenuates "orders.update" "batch" .http sampleInstant
    ⟨by decide, by decide, by decide, by decide⟩).1.2.1
  have restricted : permission.audiences = some ["web"] := by
    have same : permissionNamed (some "orders") webWorld.repository.snapshot =
      some { samplePermission with audiences := some ["web"] } := by decide
    rw [show (sampleGrant "clerk-orders" "clerk").permissionId = some "orders" from rfl, same] at named
    cases named
    rfl
  simp [restricted, admits] at covered

end Applik8s.Authority
