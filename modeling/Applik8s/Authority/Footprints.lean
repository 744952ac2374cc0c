import Applik8s.Authority.Effects

/-! Which parts of the repository an operation can write, whatever it finds: permissions
and roles, grants with their catalog references, grant requests, or tombstones. Most
operations write none of them, and the operations that write tombstones do so last. -/
namespace Applik8s.Authority
open List
open Lib (Table)
open Lib.Program (MakesOnly TouchesLast Concludes check makesOnly_bind makesOnly_check makesOnly_checked makesOnly_forEach
  makesOnly_collect makesOnly_imp touchesLast_bind touchesLast_of_makesOnly concludes_bind)

inductive Area where
  | definitions
  | grants
  | requests
  | tombstones
  | elsewhere
  deriving DecidableEq

def AuthorityCall.area : AuthorityCall → Area
  | .putPermission _ => .definitions
  | .putRole _ => .definitions
  | .putGrant _ => .grants
  | .putCatalogReference _ kind _ _ => if kind = .grant then .grants else .elsewhere
  | .removeCatalogReference _ kind _ => if kind = .grant then .grants else .elsewhere
  | .putRequest _ => .requests
  | .putTombstone _ => .tombstones
  | _ => .elsewhere

/-- A call that writes at most the given parts, and whatever lies elsewhere. -/
def Within (areas : List Area) (call : AuthorityCall) : Prop := call.area = .elsewhere ∨ call.area ∈ areas

variable {areas : List Area}

theorem Within.ne (within : Within areas call) (outside : area ∉ areas) (shared : area ≠ .elsewhere)
    : call.area ≠ area := by
  rintro rfl
  rcases within with same | listed
  · exact shared same
  · exact outside listed

def PutsTombstone (call : AuthorityCall) : Prop := call.area = .tombstones

section
variable {allowed : AuthorityCall → Prop}

theorem makesOnly_call (meets : allowed req) :
    (Lib.Program.call req .done : AuthorityProgram req.Reply).MakesOnly allowed :=
  ⟨meets, fun _ => trivial⟩

theorem makesOnly_called {α : Type} {req : AuthorityCall} {next : req.Reply → AuthorityProgram α}
    (meets : allowed req) (rest : ∀ reply, (next reply).MakesOnly allowed) :
    ((Lib.Program.call req .done : AuthorityProgram req.Reply) >>= next).MakesOnly allowed :=
  makesOnly_bind (makesOnly_call meets) rest

theorem makesOnly_audit (draws : allowed .id) (appends : ∀ event, allowed (.appendAudit event)) :
    (audit dates now kind authRev fields).MakesOnly allowed :=
  makesOnly_called draws fun _ => makesOnly_call (appends _)

theorem makesOnly_putGrant (reads : allowed .snapshot) (stores : allowed (.putGrant record))
    (references : ∀ rev id opIds, allowed (.putCatalogReference rev .grant id opIds))
    (removals : ∀ rev id, allowed (.removeCatalogReference rev .grant id)) :
    (putGrant dates now record).MakesOnly allowed := by
  refine makesOnly_called reads fun state => makesOnly_called stores fun _ => makesOnly_bind ?_ fun _ => ?_
  · unfold dropMovedReference
    split
    · split
      · exact makesOnly_call (removals _ _)
      · trivial
    · trivial
  · unfold settleReference
    split
    · exact makesOnly_call (removals _ _)
    · exact makesOnly_call (references _ _ _)

end

theorem audit_within : (audit dates now kind authRev fields).MakesOnly (Within areas) :=
  makesOnly_audit (Or.inl rfl) fun _ => Or.inl rfl

theorem snapshot_within : Calls.snapshot.MakesOnly (Within areas) := makesOnly_call (Or.inl rfl)

/-! ### Operations that write permissions or roles -/

section
variable {areas : List Area} (defines : Area.definitions ∈ areas)
include defines

theorem reconcilePermission_within :
    (reconcilePermission rev cur perm).MakesOnly (Within areas) := by
  refine makesOnly_checked fun _ => ?_
  split
  · exact makesOnly_call (Or.inr defines)
  · trivial

theorem reconcileRole_within : (reconcileRole desired cur role).MakesOnly (Within areas) := by
  refine makesOnly_checked fun _ => ?_
  split
  · exact makesOnly_call (Or.inr defines)
  · trivial

theorem retirePermission_within : (retirePermission dates now desired perm).MakesOnly (Within areas) := by
  unfold retirePermission
  split
  · exact makesOnly_call (Or.inr defines)
  · trivial

theorem retireRole_within : (retireRole dates now desired role).MakesOnly (Within areas) := by
  unfold retireRole
  split
  · exact makesOnly_call (Or.inr defines)
  · trivial

end

theorem reconcileApplicationPermissions_within :
    (reconcileApplicationPermissions dates now rev desired).MakesOnly (Within [.definitions]) := by
  refine makesOnly_bind snapshot_within fun cur => makesOnly_bind (makesOnly_forEach fun perm => ?_)
    fun _ => makesOnly_bind (makesOnly_forEach fun _ => retirePermission_within mem_cons_self) fun _ =>
      makesOnly_bind snapshot_within fun _ => trivial
  exact makesOnly_checked fun _ => makesOnly_checked fun _ => makesOnly_checked fun _ => makesOnly_checked fun _ =>
      makesOnly_checked fun _ => makesOnly_call (Or.inr mem_cons_self)

theorem createRuntimePermission_within : (createRuntimePermission record).MakesOnly (Within [.definitions]) :=
  makesOnly_checked fun _ => makesOnly_checked fun _ => makesOnly_checked fun _ =>
    makesOnly_bind snapshot_within fun _ => makesOnly_checked fun _ =>
      makesOnly_called (Or.inr mem_cons_self) fun _ => trivial

theorem createRuntimeRole_within : (createRuntimeRole dates now record).MakesOnly (Within [.definitions]) :=
  makesOnly_checked fun _ => makesOnly_bind snapshot_within fun _ => makesOnly_checked fun _ =>
    makesOnly_checked fun _ => makesOnly_called (Or.inr mem_cons_self) fun _ =>
      makesOnly_bind audit_within fun _ => trivial

/-! ### Operations that write elsewhere -/

theorem registerOutcome_within : (registerOutcome record).MakesOnly (Within []) := by
  refine makesOnly_bind snapshot_within fun state => makesOnly_checked fun _ => makesOnly_checked fun _ => ?_
  unfold putNewOutcome
  split
  · trivial
  · exact makesOnly_called (Or.inl rfl) fun _ => trivial

theorem registerManifestOutcome_within : (registerManifestOutcome out).MakesOnly (Within areas) :=
  makesOnly_bind (makesOnly_imp (fun _ within => within.imp_right fun listed => absurd listed not_mem_nil)
    registerOutcome_within) fun _ => trivial

theorem requestGrant_within :
    (requestGrant dates now record).MakesOnly (Within [.requests]) := by
  refine makesOnly_checked fun _ => makesOnly_checked fun _ => makesOnly_bind snapshot_within fun state => ?_
  split
  · exact makesOnly_checked fun _ => trivial
  · exact makesOnly_called (Or.inr mem_cons_self) fun _ => makesOnly_bind audit_within fun _ => trivial

theorem grantedRolesForIdentity_within : (grantedRolesForIdentity dates now identity).MakesOnly (Within []) :=
  makesOnly_bind snapshot_within fun _ => trivial

theorem delegate_within : (delegate dates now record parentGrant).MakesOnly (Within []) :=
  makesOnly_checked fun _ => makesOnly_checked fun _ => makesOnly_checked fun _ => makesOnly_checked fun _ =>
      makesOnly_checked fun _ => makesOnly_checked fun _ => makesOnly_called (Or.inl rfl) fun _ => trivial

theorem issueReceipt_within :
    (issueReceipt dates now req matched resv).MakesOnly (Within []) := by
  refine makesOnly_called (Or.inl rfl) fun _ => makesOnly_bind ?_ fun _ => makesOnly_bind audit_within fun _ =>
    trivial
  unfold referenceEnvelope
  split
  · exact makesOnly_call (Or.inl rfl)
  · trivial

theorem denyAuthorization_within : (denyAuthorization dates now req denial).MakesOnly (Within []) :=
  makesOnly_bind audit_within fun _ => trivial

theorem authorize_within : (authorize dates now req).MakesOnly (Within []) := by
  unfold authorize
  split
  · exact denyAuthorization_within
  refine makesOnly_bind snapshot_within fun state => ?_
  split
  · exact denyAuthorization_within
  refine makesOnly_checked fun plan => ?_
  cases plan with
  | unbounded => exact issueReceipt_within
  | retry => exact issueReceipt_within
  | fresh grant =>
    refine makesOnly_bind ?_ fun _ => issueReceipt_within
    exact makesOnly_called (Or.inl rfl) fun _ => makesOnly_called (Or.inl rfl) fun _ =>
      makesOnly_bind audit_within fun _ => trivial
  | exhausted grant => exact denyAuthorization_within

theorem transitionReservation_within :
    (transitionReservation dates now reservationId new uncertainEffect).MakesOnly (Within []) :=
  makesOnly_bind snapshot_within fun _ => makesOnly_checked fun _ => makesOnly_checked fun _ =>
    makesOnly_called (Or.inl rfl) fun _ => trivial

theorem revalidateReceipt_within :
    (revalidateReceipt dates now receipt catalog boundary trustedContextDigest).MakesOnly (Within []) := by
  unfold revalidateReceipt
  split
  · trivial
  split
  · trivial
  · refine makesOnly_bind snapshot_within fun state => ?_
    split <;> trivial

/-! ### Operations that write grants -/

theorem putGrant_within (granted : Area.grants ∈ areas) : (putGrant dates now record).MakesOnly (Within areas) :=
  makesOnly_putGrant (Or.inl rfl) (Or.inr granted) (fun _ _ _ => Or.inr granted) fun _ _ => Or.inr granted

theorem assignGrant_within : (assignGrant dates now record).MakesOnly (Within [.grants]) := by
  refine makesOnly_called (Or.inl rfl) fun state => ?_
  split
  · exact makesOnly_checked fun _ => trivial
  · exact makesOnly_checked fun _ => makesOnly_bind (putGrant_within mem_cons_self) fun _ =>
      makesOnly_bind audit_within fun _ => trivial

theorem revokeGrant_within :
    (revokeGrant dates now grantId reason).MakesOnly (Within [.grants]) := by
  refine makesOnly_called (Or.inl rfl) fun state => makesOnly_checked fun grant => ?_
  split
  · trivial
  · exact makesOnly_bind (putGrant_within mem_cons_self) fun _ => makesOnly_bind audit_within fun _ => trivial

theorem revokeRoleForIdentity_within :
    (revokeRoleForIdentity dates now roleId identity reason).MakesOnly (Within [.grants]) :=
  makesOnly_called (Or.inl rfl) fun _ => makesOnly_checked fun _ => makesOnly_collect fun _ => revokeGrant_within

theorem decideGrantRequest_within :
    (decideGrantRequest dates now requestId decision).MakesOnly (Within [.grants, .requests]) := by
  refine makesOnly_called (Or.inl rfl) fun state => makesOnly_bind (makesOnly_check _) fun req => ?_
  split
  · exact makesOnly_checked fun _ => trivial
  refine makesOnly_checked fun _ => makesOnly_checked fun _ => makesOnly_checked fun _ => makesOnly_checked fun _ =>
      makesOnly_bind ?_ fun _ => makesOnly_called (Or.inl rfl) fun _ =>
        makesOnly_called (Or.inr (mem_cons_of_mem _ mem_cons_self)) fun _ =>
          makesOnly_bind audit_within fun _ => trivial
  unfold storeDecidedGrant
  split
  · trivial
  · exact makesOnly_checked fun _ => makesOnly_checked fun _ =>
      putGrant_within mem_cons_self

theorem bootstrapDeclaredRole_within :
    (bootstrapDeclaredRole dates now bootstrap admittedIdentity).MakesOnly (Within [.grants]) := by
  unfold bootstrapDeclaredRole
  split
  · trivial
  refine makesOnly_called (Or.inl rfl) fun state => makesOnly_bind (makesOnly_check _)
    fun role => makesOnly_checked fun _ => ?_
  dsimp only
  split
  · split <;> trivial
  · exact makesOnly_collect fun _ => makesOnly_checked fun _ => makesOnly_checked fun _ =>
      makesOnly_bind (putGrant_within mem_cons_self) fun _ => makesOnly_bind audit_within fun _ => trivial

theorem assignBreakGlassRole_within :
    (assignBreakGlassRole dates now req).MakesOnly (Within [.grants]) := by
  refine makesOnly_called (Or.inl rfl) fun state => makesOnly_bind (makesOnly_check _)
    fun expiresAt => makesOnly_checked fun role => makesOnly_checked fun _ => ?_
  dsimp only
  split
  · exact makesOnly_checked fun _ => trivial
  refine makesOnly_bind (makesOnly_collect fun _ => ?_) fun _ => makesOnly_bind audit_within fun _ => trivial
  exact makesOnly_checked fun _ => makesOnly_checked fun _ =>
    makesOnly_bind (putGrant_within mem_cons_self) fun _ => trivial

/-! ### Operations that write definitions and grants -/

theorem reconcileApplicationAuthority_within :
    (reconcileApplicationAuthority dates now manifest).MakesOnly (Within [.definitions, .grants]) := by
  have defines : Area.definitions ∈ [Area.definitions, .grants] := by decide
  have granted : Area.grants ∈ [Area.definitions, .grants] := by decide
  refine makesOnly_bind snapshot_within fun cur =>
    makesOnly_bind (makesOnly_forEach fun _ => reconcilePermission_within defines) fun _ =>
    makesOnly_bind (makesOnly_forEach fun _ => reconcileRole_within defines) fun _ =>
    makesOnly_bind (makesOnly_forEach fun grant => ?_) fun _ =>
    makesOnly_bind (makesOnly_forEach fun _ => retirePermission_within defines) fun _ =>
    makesOnly_bind (makesOnly_forEach fun _ => retireRole_within defines) fun _ =>
    makesOnly_bind (makesOnly_forEach fun grant => ?_) fun _ => snapshot_within
  · refine makesOnly_checked fun _ => makesOnly_bind snapshot_within fun _ => makesOnly_checked fun _ => ?_
    split
    · exact putGrant_within granted
    · trivial
  · unfold retireGrant
    split
    · exact putGrant_within granted
    · trivial

theorem reconcileStaticAuthorityManifest_within :
    (reconcileStaticAuthorityManifest dates now manifest catRev).MakesOnly (Within [.definitions, .grants]) :=
  makesOnly_bind snapshot_within fun _ => makesOnly_checked fun _ =>
    makesOnly_bind (makesOnly_forEach fun _ => makesOnly_check _) fun _ =>
      makesOnly_bind (makesOnly_forEach fun _ => registerManifestOutcome_within) fun _ =>
        reconcileApplicationAuthority_within

theorem migrateCatalogAuthority_within : (migrateCatalogAuthority dates now older newer nextRev).MakesOnly
      (Within [.definitions, .grants]) := by
  have defines : Area.definitions ∈ [Area.definitions, .grants] := by decide
  have granted : Area.grants ∈ [Area.definitions, .grants] := by decide
  refine makesOnly_bind snapshot_within fun state => makesOnly_bind (makesOnly_check _)
    fun plan => makesOnly_bind (makesOnly_forEach fun _ => makesOnly_call (Or.inr defines)) fun _ =>
    makesOnly_bind (makesOnly_forEach fun _ => ?_) fun _ => makesOnly_bind (makesOnly_forEach fun _ => ?_) fun _ =>
    makesOnly_bind (makesOnly_forEach fun _ => audit_within) fun _ => snapshot_within
  · exact makesOnly_called (Or.inr granted) fun _ => makesOnly_bind
      (makesOnly_call (Or.inr granted)) fun _ => makesOnly_call (Or.inr granted)
  · exact makesOnly_called (Or.inr granted) fun _ => audit_within

theorem createRevocationTombstone_within : (createRevocationTombstone record).MakesOnly (Within [.tombstones]) := by
  refine makesOnly_checked fun _ => makesOnly_checked fun _ => makesOnly_checked fun _ =>
    makesOnly_bind snapshot_within fun state => ?_
  split
  · exact makesOnly_checked fun _ => trivial
  · exact makesOnly_called (Or.inr mem_cons_self) fun _ => trivial

theorem observeRevocationObligation_within :
    (observeRevocationObligation dates now tombstoneId proj observation).MakesOnly (Within [.tombstones]) := by
  refine makesOnly_bind snapshot_within fun state => makesOnly_checked fun tombstone => ?_
  split
  · trivial
  · exact makesOnly_checked fun _ => makesOnly_checked fun _ => makesOnly_called (Or.inr mem_cons_self) fun _ =>
        makesOnly_bind audit_within fun _ => trivial

theorem transferRevocationByBreakGlass_within :
    (transferRevocationByBreakGlass dates now tombstoneId principal text).MakesOnly
      (Within [.tombstones]) := by
  refine makesOnly_checked fun _ => makesOnly_bind snapshot_within fun state =>
    makesOnly_checked fun tombstone => ?_
  split
  · trivial
  · exact makesOnly_called (Or.inr mem_cons_self) fun _ => makesOnly_bind audit_within fun _ => trivial

private theorem concludes_audit : (audit dates now kind authRev fields).Concludes PutsTombstone :=
  concludes_bind ⟨nofun, fun _ => trivial⟩ fun _ => ⟨nofun, fun _ => trivial⟩

private theorem unmarked_snapshot : Calls.snapshot.MakesOnly fun call => ¬ PutsTombstone call :=
  makesOnly_call nofun

theorem createRevocationTombstone_touchesLast : (createRevocationTombstone record).TouchesLast PutsTombstone := by
  refine touchesLast_bind (makesOnly_check _) fun _ => touchesLast_bind (makesOnly_check _) fun _ =>
    touchesLast_bind (makesOnly_check _) fun _ => touchesLast_bind unmarked_snapshot fun state => ?_
  split
  · exact touchesLast_bind (makesOnly_check _) fun _ => trivial
  · exact Or.inl fun _ => trivial

theorem observeRevocationObligation_touchesLast :
    (observeRevocationObligation dates now tombstoneId proj observation).TouchesLast PutsTombstone := by
  refine touchesLast_bind unmarked_snapshot fun state => touchesLast_bind (makesOnly_check _) fun tombstone => ?_
  split
  · trivial
  · refine touchesLast_bind (makesOnly_check _) fun _ => touchesLast_bind (makesOnly_check _) fun _ => ?_
    exact Or.inl fun _ => concludes_bind trivial fun _ => concludes_bind concludes_audit fun _ => trivial

theorem transferRevocationByBreakGlass_touchesLast :
    (transferRevocationByBreakGlass dates now tombstoneId principal text).TouchesLast PutsTombstone := by
  refine touchesLast_bind (makesOnly_check _) fun _ => touchesLast_bind unmarked_snapshot fun state =>
    touchesLast_bind (makesOnly_check _) fun tombstone => ?_
  split
  · trivial
  · exact Or.inl fun _ => concludes_bind trivial fun _ => concludes_bind concludes_audit fun _ => trivial

/-- The parts of the repository that an operation can write. -/
def Operation.writes : Operation → List Area
  | .reconcileApplicationPermissions .. | .createRuntimePermission _ | .createRuntimeRole _ => [.definitions]
  | .reconcileApplicationAuthority _ | .reconcileStaticAuthorityManifest .. | .migrateCatalogAuthority .. |
    .migrateGrantCatalog .. => [.definitions, .grants]
  | .requestGrant _ => [.requests]
  | .decideGrantRequest .. => [.grants, .requests]
  | .assignGrant _ | .bootstrapDeclaredRole .. | .bootstrapRole _ | .assignBreakGlassRole _ |
    .revokeRoleForIdentity .. | .revokeGrant .. => [.grants]
  | .createRevocationTombstone _ | .observeRevocationObligation .. | .transferRevocationByBreakGlass .. => [.tombstones]
  | _ => []

def MigratesGrant : Operation → Prop
  | .migrateGrantCatalog .. => True
  | _ => False

/-- An error found before any state was read, the teardown check, or one transaction that writes in these parts. -/
inductive Confined (areas : List Area) : AuthorityProcess → Prop where
  | refused (error : AuthorityError) : Confined areas (.settled (.error error))
  | teardown (application : String) : Confined areas (.observe fun state =>
      .settled ((assertAuthorityTeardownSafe application state).map fun _ => .nothing))
  | transaction {β : Type} {work : AuthorityProgram β} {respond : β → Response}
      (only : work.MakesOnly (Within areas)) : Confined areas (transaction work respond)

theorem Confined.guarded (confined : Confined areas process) : Confined areas (guarded checks process) := by
  cases checks with
  | error error => exact .refused error
  | ok value => exact confined

theorem confined_process (dates : Dates) (now : Int) (other : ¬ MigratesGrant op) :
    Confined op.writes (op.process dates now) := by
  cases op with
  | reconcileApplicationPermissions => exact .transaction reconcileApplicationPermissions_within
  | createRuntimePermission => exact .transaction createRuntimePermission_within
  | createRuntimeRole => exact .transaction createRuntimeRole_within
  | reconcileApplicationAuthority => exact .transaction reconcileApplicationAuthority_within
  | reconcileStaticAuthorityManifest => exact .transaction reconcileStaticAuthorityManifest_within
  | registerOutcome => exact .transaction registerOutcome_within
  | requestGrant => exact .transaction requestGrant_within
  | decideGrantRequest => exact .transaction decideGrantRequest_within
  | assignGrant => exact .transaction assignGrant_within
  | bootstrapDeclaredRole => exact .transaction bootstrapDeclaredRole_within
  | bootstrapRole => exact .guarded (.transaction bootstrapDeclaredRole_within)
  | assignBreakGlassRole => exact .guarded (.transaction assignBreakGlassRole_within)
  | revokeRoleForIdentity => exact .guarded (.transaction revokeRoleForIdentity_within)
  | grantedRolesForIdentity => exact .transaction grantedRolesForIdentity_within
  | migrateCatalogAuthority => exact .transaction migrateCatalogAuthority_within
  | migrateGrantCatalog => exact absurd trivial other
  | delegate => exact .transaction delegate_within
  | authorize => exact .transaction authorize_within
  | transitionReservation => exact .transaction transitionReservation_within
  | revalidateReceipt => exact .transaction revalidateReceipt_within
  | createRevocationTombstone => exact .transaction createRevocationTombstone_within
  | observeRevocationObligation => exact .transaction observeRevocationObligation_within
  | transferRevocationByBreakGlass => exact .transaction transferRevocationByBreakGlass_within
  | assertAuthorityTeardownSafe app => exact .teardown app
  | revokeGrant => exact .transaction revokeGrant_within

/-- What every call outside a part preserves, a process that writes nothing there preserves. -/
theorem Confined.keeps (confined : Confined areas process) (related : Repository → Repository → Prop)
    (spares : area ∉ areas) (shared : area ≠ .elsewhere) (refl : ∀ repo, related repo repo)
    (trans : ∀ {first second third}, related first second → related second third → related first third)
    (each : ∀ (call : AuthorityCall) (world : World), call.area ≠ area → related world.repository (answer call world).2.repository)
    (before : World) :
    related before.repository (process.serial memory before).2.repository := by
  cases confined with
  | refused error => exact refl _
  | teardown => exact refl _
  | @transaction _ work respond only =>
    generalize ended : (Authority.transaction work respond).serial memory before = out
    obtain ⟨_ | _, _⟩ := out
    · rw [(serial_transaction_error ended).1]
      exact refl _
    obtain ⟨_, ran, _⟩ := serial_transaction_ok.mp ended
    have kept : related before.repository (execute work before).2.repository :=
      Lib.Program.exec_relates (fun first second : World => related first.repository second.repository)
        (fun _ => refl _) trans (fun call within state => each call state (within.ne spares shared)) only before
    rwa [ran] at kept

end Applik8s.Authority
