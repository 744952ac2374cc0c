import Applik8s.Authority.Footprints
import Applik8s.Authority.MigrationProofs

/-! Failure atomicity and concurrency. Every operation but `migrateGrantCatalog` is an
error found before any state was read, the teardown check, or one transaction. Such an
operation leaves the repository alone when it rejects, and any interleaving of such
operations has the effect of running them in some order. `migrateGrantCatalog` judges
what it migrated only after the migration was committed. -/
namespace Applik8s.Authority
open Lib (Process System Step SettledIn serialWorld Steady interleaving_is_serial)
open Lib.Program (TouchesLast touchesLast_of_makesOnly makesOnly_imp)
variable {dates : Dates} {before after : World}

inductive Simple : AuthorityProcess → Prop where
  | refused (error : AuthorityError) : Simple (.settled (.error error))
  | teardown (application : String) : Simple (.observe fun state =>
      .settled ((assertAuthorityTeardownSafe application state).map fun _ => .nothing))
  | transaction {β : Type} (work : AuthorityProgram β) (respond : β → Response)
      (last : work.TouchesLast PutsTombstone) : Simple (transaction work respond)

theorem simple_process (dates : Dates) (now : Int) (other : ¬ MigratesGrant op) : Simple (op.process dates now) := by
  have simple : ∀ {areas : List Area}, Area.tombstones ∉ areas → ∀ {process}, Confined areas process → Simple process := by
    intro areas unmarked process confined
    cases confined with
    | refused error => exact .refused error
    | teardown app => exact .teardown app
    | transaction only =>
      exact .transaction _ _ (touchesLast_of_makesOnly (makesOnly_imp (fun _ within => within.ne unmarked nofun) only))
  cases op with
  | migrateGrantCatalog => exact absurd trivial other
  | createRevocationTombstone record => exact .transaction _ _ createRevocationTombstone_touchesLast
  | observeRevocationObligation =>
    exact .transaction _ _ observeRevocationObligation_touchesLast
  | transferRevocationByBreakGlass =>
    exact .transaction _ _ transferRevocationByBreakGlass_touchesLast
  | _ => exact simple (by simp [Operation.writes]) (confined_process dates now other)

theorem rejected_simple (simple : Simple process) (rejected : process.serial memory before = (.error error, after))
    : after.repository = before.repository := by
  cases simple with
  | refused error =>
    cases rejected
    rfl
  | teardown =>
    obtain ⟨_, rfl⟩ := Prod.mk.inj rejected
    rfl
  | transaction => exact (serial_transaction_error rejected).1

/-- The submission migrates the catalog of a stored grant that has expired: the grant is
left behind by a migration that is then found to have missed it. -/
def MigratesPastExpired (dates : Dates) (before : World) (submission : Submission) : Prop :=
  match submission.operation with
  | .migrateGrantCatalog grantId older newer nextAuthorityRevision =>
    older.revision ≠ newer.revision ∧
    (planMigration dates submission.now older newer nextAuthorityRevision before.repository.snapshot).isOk = true ∧
    ∃ grant ∈ before.repository.grants.rows, grant.id = grantId ∧ truthy grant.revokedAt = false ∧
      grant.catalogRevision = older.revision ∧ isExpired dates grant.expiresAt submission.now = true
  | _ => False

section
variable {older : OperationCatalog}

private theorem assertMigratableGrant_ok :
    assertMigratableGrant grantId older.revision before.repository.snapshot = .ok value ↔
      ∃ grant ∈ before.repository.grants.rows, grant.id = grantId ∧ truthy grant.revokedAt = false ∧
        grant.catalogRevision = older.revision := by
  unfold assertMigratableGrant
  rw [refuseIf_ok]
  generalize found : before.repository.snapshot.grants.find? (fun cand =>
    cand.id = grantId ∧ ¬ truthy cand.revokedAt) = lookup
  cases lookup with
  | none =>
    constructor
    · intro pinned
      simp at pinned
    rintro ⟨grant, stored, named, live, _⟩
    have absent := List.find?_eq_none.mp found grant stored
    simp [named, live] at absent
  | some other =>
    have present : other ∈ before.repository.grants.rows := List.mem_of_find?_eq_some found
    obtain ⟨same, live⟩ : other.id = grantId ∧ truthy other.revokedAt = false := by
      simpa using List.find?_some found
    constructor
    · intro pinned
      exact ⟨other, present, same, live, by simpa using pinned⟩
    rintro ⟨grant, stored, named, _, pins⟩
    have whole : other = grant := Lib.Table.eq_of_key_eq present stored (same.trans named.symm)
    simp [whole, pins]

private theorem migratedGrant_isOk (entries : List AuditEvent)
    (planned : Planned dates now older newer nextRev before.repository.snapshot plan)
    (stored : grant ∈ before.repository.grants.rows) (live : truthy grant.revokedAt = false)
    (pins : grant.catalogRevision = older.revision) :
    (migratedGrant grant.id newer.revision (before.repository.migrated older.revision newer.revision plan
        entries).snapshot).isOk = true ↔
      isExpired dates grant.expiresAt now = false ∨ older.revision = newer.revision := by
  obtain ⟨res, present, became⟩ := Lib.Table.exists_of_converted planned.grants_rows.flip stored
  have shape : res.id = grant.id ∧ (res.catalogRevision = newer.revision ↔
      isExpired dates grant.expiresAt now = false ∨ older.revision = newer.revision) := by
    cases expired : isExpired dates grant.expiresAt now with
    | false =>
      obtain ⟨_, _, rfl⟩ := migrateGrant_ok.mp (became.moved (by simp [isLive, live, expired]) pins)
      simp
    | true =>
      have kept : res = grant := became.kept (by simp [isLive, expired])
      subst kept
      simp [pins]
  obtain ⟨named, revised⟩ := shape
  have found : (before.repository.migrated older.revision newer.revision plan entries).snapshot.grants.find?
      (fun cand => cand.id = grant.id) = some res :=
    Lib.Table.find?_eq_some.mpr ⟨present, named⟩
  rw [← revised]
  simp only [migratedGrant, found]
  by_cases moved : res.catalogRevision = newer.revision <;>
    simp [Authority.found, refuseIf, moved, Except.isOk, Except.toBool, bind, Except.bind]

private theorem migrated_ne (planned : Planned dates now older newer nextRev before.repository.snapshot plan)
    (counted : entries.length = plan.expired.length + plan.grants.length)
    (stored : grant ∈ before.repository.grants.rows) (live : truthy grant.revokedAt = false)
    (pins : grant.catalogRevision = older.revision) (expired : isExpired dates grant.expiresAt now = true) :
    before.repository.migrated older.revision newer.revision plan entries ≠ before.repository := by
  intro same
  have listed : grant ∈ plan.expired := by
    rw [planned.expired]
    exact List.mem_filter.mpr ⟨stored, by simp [pins, live, expired]⟩
  have lengths := congrArg (fun repo => repo.audit.length) same
  simp only [Repository.migrated, List.length_append] at lengths
  have positive : 0 < plan.expired.length := List.length_pos_of_mem listed
  omega

private theorem migrateGrantCatalog_atomic_iff
    (planned : planMigration dates now older newer nextRev before.repository.snapshot = .ok plan)
    (stored : grant ∈ before.repository.grants.rows) (live : truthy grant.revokedAt = false)
    (pins : grant.catalogRevision = older.revision) :
    ((serve dates before ⟨now, .migrateGrantCatalog grant.id older newer nextRev⟩).1.isOk = false →
        (serve dates before ⟨now, .migrateGrantCatalog grant.id older newer
          nextRev⟩).2.repository = before.repository) ↔
      isExpired dates grant.expiresAt now = false ∨ older.revision = newer.revision := by
  obtain ⟨entries, drawn, counted, ran⟩ := migrateCatalogAuthority_of_plan planned
  have checked : assertMigratableGrant grant.id older.revision before.repository.snapshot = .ok () :=
    assertMigratableGrant_ok.mpr ⟨grant, stored, rfl, live, pins⟩
  have served : serve dates before ⟨now, .migrateGrantCatalog grant.id older newer nextRev⟩ =
      (migratedGrant grant.id newer.revision (before.repository.migrated older.revision newer.revision plan
        entries).snapshot, { before with
          drawn := drawn
          repository := before.repository.migrated older.revision newer.revision plan entries }) := by
    change (guarded (assertMigratableGrant grant.id older.revision before.repository.snapshot) _).serial
      memory before = _
    rw [checked]
    simp only [guarded, Process.serial, Lib.Store.transaction, ran]
    rfl
  rw [planMigration_ok] at planned
  rw [served]
  have judged := migratedGrant_isOk entries planned stored live pins
  rw [← judged]
  constructor
  · intro unchanged
    by_contra rejected
    have expired : isExpired dates grant.expiresAt now = true := by
      by_contra fresh
      exact rejected (judged.mpr (Or.inl (Bool.not_eq_true _ ▸ fresh)))
    exact migrated_ne planned counted stored live pins expired (unchanged (Bool.not_eq_true _ ▸ rejected))
  · intro accepted rejected
    rw [accepted] at rejected
    cases rejected

private theorem migratesGrant_atomic_iff :
    ((serve dates before ⟨now, .migrateGrantCatalog grantId older newer nextAuthorityRevision⟩).1.isOk = false →
        (serve dates before ⟨now, .migrateGrantCatalog grantId older newer
          nextAuthorityRevision⟩).2.repository = before.repository) ↔
      ¬ MigratesPastExpired dates before ⟨now, .migrateGrantCatalog grantId older newer nextAuthorityRevision⟩ := by
  cases checked : assertMigratableGrant grantId older.revision before.repository.snapshot with
  | error error =>
    have served : serve dates before ⟨now, .migrateGrantCatalog grantId older newer nextAuthorityRevision⟩ =
        (.error error, before) := by
      change (guarded (assertMigratableGrant grantId older.revision before.repository.snapshot) _).serial
        memory before = _
      rw [checked]
      rfl
    refine ⟨fun _ past => ?_, fun _ _ => by rw [served]⟩
    obtain ⟨_, _, grant, stored, named, live, pins, _⟩ := past
    have passes : assertMigratableGrant grantId older.revision before.repository.snapshot = .ok () :=
      assertMigratableGrant_ok.mpr ⟨grant, stored, named, live, pins⟩
    rw [checked] at passes
    cases passes
  | ok value =>
    obtain ⟨grant, stored, rfl, live, pins⟩ := assertMigratableGrant_ok.mp checked
    cases planned : planMigration dates now older newer nextAuthorityRevision before.repository.snapshot with
    | error error =>
      refine ⟨fun _ past => ?_, fun _ _ => ?_⟩
      · have isPlanned := past.2.1
        simp only [planned] at isPlanned
        cases isPlanned
      -- without a plan the migration throws before its first write
      have failed : (migrateCatalogAuthority dates now older newer nextAuthorityRevision).exec
          memory.toInterpreter before = (.error error, before) := by
        change execute _ before = _
        rw [migrateCatalogAuthority, execute_snapshot_bind, planned]
        rfl
      change ((guarded (assertMigratableGrant grant.id older.revision before.repository.snapshot) _).serial
        memory before).2.repository = _
      rw [checked]
      simp only [guarded, Process.serial, Lib.Store.transaction, failed]
      exact restore_eq (List.prefix_refl _)
    | ok plan =>
      rw [migrateGrantCatalog_atomic_iff planned stored live pins]
      have unique : ∀ other ∈ before.repository.grants.rows, other.id = grant.id → other = grant :=
        fun other member same => Lib.Table.eq_of_key_eq member stored same
      constructor
      · rintro harmless ⟨apart, _, other, member, same, _, _, expired⟩
        rw [unique other member same] at expired
        rcases harmless with fresh | equal
        · rw [fresh] at expired
          cases expired
        · exact apart equal
      · intro harmless
        by_contra stuck
        rw [not_or, Bool.not_eq_false] at stuck
        exact harmless ⟨stuck.2, by simp [planned, Except.isOk, Except.toBool], grant, stored, rfl, live, pins, stuck.1⟩

end

/-- An operation that rejects leaves the repository as it was, exactly unless it migrates
the catalog of an expired grant. -/
theorem rejection_keeps_repository_iff (dates : Dates) (before : World) (submission : Submission) :
    ((serve dates before submission).1.isOk = false →
        (serve dates before submission).2.repository = before.repository) ↔
      ¬ MigratesPastExpired dates before submission := by
  obtain ⟨now, op⟩ := submission
  by_cases migrates : MigratesGrant op
  · cases op with
    | migrateGrantCatalog => exact migratesGrant_atomic_iff
    | _ => exact migrates.elim
  constructor
  · intro _ past
    cases op with
    | migrateGrantCatalog => exact migrates trivial
    | _ => exact past
  · intro _ rejected
    generalize ended : serve dates before ⟨now, op⟩ = out at rejected
    obtain ⟨_ | _, _⟩ := out
    · exact rejected_simple (simple_process dates now migrates) ended
    · cases rejected

private theorem atomic_simple (simple : Simple process) : process.Atomic := by
  cases simple with
  | refused error => exact .settled _
  | teardown => exact .read _
  | transaction work => exact .transact work _

private theorem reader_of_simple {finish : AuthoritySnapshot → Except AuthorityError Response}
    (simple : Simple process) (reads : process = .observe fun seen => .settled (finish seen))
    (same : first.tombstones = second.tombstones) : finish first = finish second := by
  cases simple with
  | refused error => cases reads
  | transaction => cases reads
  | teardown app =>
    have finishes : ∀ seen, finish seen = (assertAuthorityTeardownSafe app seen).map fun _ => .nothing := by
      intro seen
      have body := congrFun (Process.observe.inj reads) seen
      exact (Process.settled.inj body).symm
    rw [finishes, finishes, assertAuthorityTeardownSafe, assertAuthorityTeardownSafe, pendingTombstones,
      pendingTombstones, same]

private theorem touchesLast_of_simple {process : AuthorityProcess} {β : Type} {body : AuthorityProgram β}
    {next : Except AuthorityError β → AuthorityProcess} (simple : Simple process)
    (submitted : process = .transact body next) : body.TouchesLast PutsTombstone := by
  cases simple with
  | refused error => cases submitted
  | teardown => cases submitted
  | transaction _ _ last =>
    cases submitted
    exact last

theorem answer_keeps_tombstones (req : AuthorityCall) (spares : ¬ PutsTombstone req)
    (world : World) : (answer req world).2.repository.tombstones = world.repository.tombstones := by
  cases req with
  | putTombstone record => exact absurd rfl spares
  | _ => rfl

theorem steady_simple {ι : Type} {processes : ι → AuthorityProcess} (simple : ∀ i, Simple (processes i)) :
    Steady memory processes := by
  intro i j finish β body respond before reached rest reads submitted passes
  have last := touchesLast_of_simple (simple j) submitted
  have view : reached.repository.tombstones = before.repository.tombstones ∨
      ∃ value after, body.exec memory.toInterpreter before = (.ok value, after) ∧
        reached.repository.tombstones = after.repository.tombstones :=
    passes.view_or (fun world : World => world.repository.tombstones) answer_keeps_tombstones last
  rcases view with same | ⟨_, _, ran, same⟩
  · exact Or.inl (reader_of_simple (simple i) reads (congrArg Lib.Table.rows same))
  refine Or.inr (reader_of_simple (simple i) reads ?_)
  simp only [Lib.Store.transaction, ran]
  exact congrArg Lib.Table.rows same

def processesOf (dates : Dates) {ι : Type} (submissions : ι → Submission) (i : ι) : AuthorityProcess :=
  (submissions i).operation.process dates (submissions i).now

/-- An operation that rejects leaves the repository as it was exactly unless it migrates
the catalog of an expired grant; and operations submitted concurrently, interleaved in
any way, have the effect and the results of serving them in some order when none of them
migrates the catalog of one grant. -/
theorem operations_are_atomic_iff (dates : Dates) : (∀ (before : World) (submission : Submission),
      ((serve dates before submission).1.isOk = false →
          (serve dates before submission).2.repository = before.repository) ↔
        ¬ MigratesPastExpired dates before submission) ∧
    ∀ (ι : Type) [Fintype ι] [DecidableEq ι] (submissions : ι → Submission) (start : World)
      (after : System authorityInterface World AuthoritySnapshot AuthorityError Response ι),
      (∀ i, ¬ MigratesGrant (submissions i).operation) →
      Relation.ReflTransGen (Step memory) ⟨start, fun i => .outside (processesOf dates submissions i)⟩ after →
      (∀ i, ∃ result, after.threads i = .outside (.settled result)) →
      ∃ order : List ι, order.Nodup ∧ (∀ i, i ∈ order) ∧
        after.world = order.foldl (fun world i => advance dates world (submissions i)) start ∧
        ∀ (earlier : List ι) (i : ι) (later : List ι), order = earlier ++ i :: later →
          after.threads i = .outside (.settled (serve dates
            (earlier.foldl (fun world i => advance dates world (submissions i)) start) (submissions i)).1) := by
  refine ⟨rejection_keeps_repository_iff dates, ?_⟩
  intro ι _ _ submissions start after others run finished
  have simple : ∀ i, Simple (processesOf dates submissions i) := fun i => simple_process dates _ (others i)
  obtain ⟨order, distinct, complete, world, settled⟩ :=
    interleaving_is_serial (fun i => atomic_simple (simple i)) (steady_simple simple) run finished
  exact ⟨order, distinct, complete, world, settled⟩

/-- A grant that expired before its catalog is migrated. -/
def expiredWorld : World :=
  sampleWorld (sampleRepository [samplePermission] []
    [{ sampleGrant "clerk-orders" "clerk" with expiresAt := some "2026-07-28T00:00:00.000Z" }])

/-- Migrating the catalog of an expired grant moves the permission to the new catalog and
then rejects. -/
theorem rejected_migration_is_committed : ¬ ∀ (dates : Dates) (before : World) (submission : Submission),
      (serve dates before submission).1.isOk = false →
        (serve dates before submission).2.repository = before.repository := by
  intro claimed
  have unchanged := claimed utcDates expiredWorld
    ⟨sampleInstant, .migrateGrantCatalog "clerk-orders" sampleCatalog nextCatalog "2"⟩ (by decide +kernel)
  have moved : (serve utcDates expiredWorld ⟨sampleInstant, .migrateGrantCatalog "clerk-orders" sampleCatalog
      nextCatalog "2"⟩).2.repository.permissions.rows.map PermissionRecord.catalogRevision = ["c2"] := by
    decide +kernel
  rw [unchanged] at moved
  exact absurd moved (by decide)

end Applik8s.Authority
