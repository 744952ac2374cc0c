import Applik8s.Authority.Service

/-! What the steps of an operation do to the repository. The small programs have
equations; an operation has a lemma that says, for an execution that succeeded, which
checks passed and which world it left. Nothing after this module unfolds an operation
to see what it writes. -/
namespace Applik8s.Authority
open List Except Nat
open Lib (Keyed Table)
open Lib.Program (exec_bind exec_pure exec_check_bind_ok exec_forEach_bind_ok check forEach)
variable {dates : Dates} {now : Int} {world before after : World} (change : Repository → Repository)

@[simp] theorem World.write_repository (world : World) :
    (world.write change).repository = change world.repository := rfl

@[simp] theorem World.write_ids (world : World) : (world.write change).ids = world.ids := rfl
@[simp] theorem World.write_drawn (world : World) : (world.write change).drawn = world.drawn := rfl

def World.audited (dates : Dates) (now : Int) (kind : AuditKind) (authorityRevision : String)
    (fields : AuditFields) (world : World) : World :=
  { world with
    drawn := world.drawn + 1
    repository := { world.repository with
      audit := world.repository.audit ++
        [{ id := world.ids world.drawn, kind, occurredAt := dates.toISOString now, authorityRevision
           details := fields.details
           principal := fields.principal
           operationId := whenTruthy fields.operationId
           targetDigest := whenTruthy fields.targetDigest }] } }

@[simp] theorem execute_audit (kind : AuditKind) (authRev : String) (fields : AuditFields) :
    execute (audit dates now kind authRev fields) world = (.ok (), world.audited dates now kind authRev fields) := rfl

@[simp] theorem World.audited_permissions :
    (world.audited dates now kind authRev fields).repository.permissions =
      world.repository.permissions := rfl

@[simp] theorem World.audited_roles :
    (world.audited dates now kind authRev fields).repository.roles = world.repository.roles := rfl

@[simp] theorem World.audited_grants :
    (world.audited dates now kind authRev fields).repository.grants = world.repository.grants := rfl

@[simp] theorem World.audited_reservations :
    (world.audited dates now kind authRev fields).repository.reservations =
      world.repository.reservations := rfl

@[simp] theorem World.audited_catalogReferences :
    (world.audited dates now kind authRev fields).repository.catalogReferences =
      world.repository.catalogReferences := rfl

/-! ### Storing a grant -/

/-- The catalog references without the one of a grant that moved to another revision. -/
def movedReferences (previous : Option GrantRecord) (record : GrantRecord)
    (references : Table CatalogReference) : Table CatalogReference :=
  match previous with
  | some previous =>
    if previous.catalogRevision ≠ record.catalogRevision then
      references.remove (previous.catalogRevision, .grant, previous.id)
    else references
  | none => references

/-- The catalog references after a live grant gained its own or a dead one lost it. -/
def settledReferences (dates : Dates) (now : Int) (record : GrantRecord)
    (references : Table CatalogReference) : Table CatalogReference :=
  if truthy record.revokedAt || isExpired dates record.expiresAt now then
    references.remove (record.catalogRevision, .grant, record.id)
  else
    references.put ⟨record.catalogRevision, .grant, record.id, sortStrings (distinctValues record.operationIds)⟩

/-- The repository after `#putGrant`. -/
def Repository.storeGrant (dates : Dates) (now : Int) (record : GrantRecord) (repository : Repository) :
    Repository :=
  let previous := repository.grants.rows.find? fun candidate => candidate.id = record.id
  { repository with
    grants := repository.grants.put record
    revision := repository.revision + 1
    catalogReferences :=
      settledReferences dates now record (movedReferences previous record repository.catalogReferences) }

variable (record : GrantRecord)

private theorem execute_dropMovedReference (prev : Option GrantRecord) :
    execute (dropMovedReference prev record) world =
      (.ok (), world.write fun repository => { repository with
        catalogReferences := movedReferences prev record repository.catalogReferences }) := by
  unfold dropMovedReference movedReferences
  cases prev with
  | none => rfl
  | some =>
    dsimp only
    split <;> rfl

private theorem execute_settleReference : execute (settleReference dates now record) world =
      (.ok (), world.write fun repository => { repository with
        catalogReferences := settledReferences dates now record repository.catalogReferences }) := by
  unfold settleReference settledReferences
  split <;> rfl

@[simp] theorem execute_storeGrant : execute (putGrant dates now record) world =
      (.ok (), world.write (Repository.storeGrant dates now record)) := by
  simp only [putGrant, exec_bind, execute_snapshot, execute_putGrant, execute_dropMovedReference,
    execute_settleReference]
  rfl

variable (repository : Repository)

@[simp] theorem Repository.storeGrant_grants :
    (repository.storeGrant dates now record).grants = repository.grants.put record := rfl

@[simp] theorem Repository.storeGrant_permissions :
    (repository.storeGrant dates now record).permissions = repository.permissions := rfl

@[simp] theorem Repository.storeGrant_roles :
    (repository.storeGrant dates now record).roles = repository.roles := rfl

/-! ### Sequences that start with a known step -/

section
variable {α β : Type}

theorem execute_bind_of {next : α → AuthorityProgram β} (runs : execute prog before = (.ok value, after)) :
    execute (prog >>= next) before = execute (next value) after := by
  unfold execute at runs ⊢
  rw [exec_bind, runs]

theorem execute_forEach_of {body : α → AuthorityProgram Unit} (runs : execute (body item) before = (.ok (), after)) :
    execute (forEach (item :: rest) body) before = execute (forEach rest body) after :=
  execute_bind_of runs

end

section
variable {β : Type}

theorem execute_snapshot_bind (next : AuthoritySnapshot → AuthorityProgram β) :
    execute (Calls.snapshot >>= next) world = execute (next world.repository.snapshot) world :=
  execute_bind_of execute_snapshot

theorem execute_putReservation_bind (record : GrantReservation) (next : Unit → AuthorityProgram β) :
    execute (Calls.putReservation record >>= next) world =
      execute (next ()) (answer (.putReservation record) world).2 :=
  execute_bind_of (execute_putReservation record)

end

variable {α : Type}

theorem serial_transaction_ok : (transaction work respond).serial memory before = (.ok resp, after) ↔
      ∃ value, execute work before = (.ok value, after) ∧ respond value = resp := by
  unfold transaction execute
  simp only [Lib.Process.serial, Lib.Store.transaction]
  generalize work.exec memory.toInterpreter before = ended
  obtain ⟨_ | value, _⟩ := ended
  · simp [Except.map]
  simp only [Except.map, Prod.mk.injEq, ok.injEq]
  constructor
  · rintro ⟨responded, same⟩
    exact ⟨value, ⟨rfl, same⟩, responded⟩
  · rintro ⟨_, ⟨rfl, same⟩, responded⟩
    exact ⟨responded, same⟩

theorem serial_transaction_isOk : ((transaction work respond).serial memory before).1.isOk = true ↔
      ∃ value after, execute work before = (.ok value, after) := by
  generalize ended : (transaction work respond).serial memory before = out
  obtain ⟨_ | _, after⟩ := out
  · constructor
    · intro accepted
      cases accepted
    · rintro ⟨value, after, ran⟩
      have same : (transaction work respond).serial memory before = (.ok (respond value), after) :=
        serial_transaction_ok.mpr ⟨value, ran, rfl⟩
      rw [ended] at same
      cases same
  · obtain ⟨value, ran, _⟩ := serial_transaction_ok.mp ended
    exact ⟨fun _ => ⟨value, after, ran⟩, fun _ => rfl⟩

/-- What no call takes back: the audit is only appended to, the ids stay what they are,
and those that were drawn stay drawn. -/
structure Continues (before after : World) : Prop where
  audit : before.repository.audit <+: after.repository.audit
  ids : after.ids = before.ids
  drawn : before.drawn ≤ after.drawn

theorem Continues.refl (world : World) : Continues world world := ⟨prefix_refl _, rfl, le_refl _⟩

theorem Continues.trans (earlier : Continues first second) (later : Continues second third) : Continues first third :=
  ⟨earlier.audit.trans later.audit, later.ids.trans earlier.ids, le_trans earlier.drawn later.drawn⟩

private theorem answer_continues (req : AuthorityCall) (world : World) : Continues world (answer req world).2 := by
  cases req with
  | appendAudit event => exact ⟨prefix_append _ _, rfl, le_refl _⟩
  | id => exact ⟨prefix_refl _, rfl, le_succ _⟩
  | _ => exact ⟨prefix_refl _, rfl, le_refl _⟩

theorem execute_continues (prog : AuthorityProgram α) (world : World) : Continues world (execute prog world).2 :=
  Lib.Program.exec_relates Continues Continues.refl Continues.trans (fun req _ => answer_continues req)
    (Lib.Program.makesOnly_any prog) world

theorem restore_eq {mark : Repository} (appended : mark.audit <+: cur.audit) : mark.restore cur = mark := by
  have cut : cur.audit.take mark.audit.length = mark.audit :=
    (prefix_iff_eq_take.mp appended).symm
  simp [Repository.restore, cut]

theorem serial_transaction_error {error : AuthorityError}
    (failed : (transaction work respond).serial memory before = (.error error, after)) :
    after.repository = before.repository ∧ after.ids = before.ids ∧ before.drawn ≤ after.drawn := by
  have continued : Continues before (work.exec memory.toInterpreter before).2 := execute_continues work before
  unfold transaction at failed
  simp only [Lib.Process.serial, Lib.Store.transaction] at failed
  generalize work.exec memory.toInterpreter before = ended at failed continued
  obtain ⟨_ | _, _⟩ := ended
  · obtain ⟨_, rfl⟩ := Prod.mk.inj failed
    exact ⟨restore_eq continued.audit, continued.ids, continued.drawn⟩
  · simp [Except.map] at failed

theorem serial_continues (process : AuthorityProcess) (world : World) :
    Continues world (process.serial memory world).2 := by
  induction process generalizing world with
  | settled => exact .refl world
  | observe next ih => exact ih _ world
  | transact body next ih =>
    refine Continues.trans ?_ (ih _ _)
    have ran : Continues world (body.exec memory.toInterpreter world).2 := execute_continues body world
    rcases ended : body.exec memory.toInterpreter world with ⟨_ | _, after⟩ <;> rw [ended] at ran <;>
      simp only [Lib.Store.transaction, ended]
    · exact ⟨congrArg Repository.audit (restore_eq ran.audit) ▸ prefix_refl _, ran.ids, ran.drawn⟩
    · exact ran

theorem assignGrant_ok {record : GrantRecord}
    (ran : execute (assignGrant dates now record) before = (.ok stored, after)) : stored = record ∧
      ((record ∈ before.repository.grants.rows ∧ after = before) ∨
        ((∀ cand ∈ before.repository.grants.rows, cand.id ≠ record.id) ∧
          validateGrant dates now record before.repository.snapshot (record.origin = .runtime) = .ok () ∧
          after = (before.write (Repository.storeGrant dates now record)).audited dates now .grantAssigned
            record.authorityRevision { principal := some record.issuedBy, details :=
              [("grantId", .text record.id), ("identityId", .text record.identity.id)] })) := by
  simp only [assignGrant, exec_bind, execute_snapshot] at ran
  split at ran
  · rename_i existing lookup
    simp only [↓exec_check_bind_ok, refuseIf_ok, not_not, exec_pure, Prod.mk.injEq, ok.injEq] at ran
    obtain ⟨_, rfl, rfl, rfl⟩ := ran
    exact ⟨rfl, Or.inl ⟨mem_of_find?_eq_some lookup, rfl⟩⟩
  rename_i lookup
  simp only [↓exec_check_bind_ok, exec_bind, execute_storeGrant, execute_audit, exec_pure,
    Prod.mk.injEq, ok.injEq] at ran
  obtain ⟨_, valid, rfl, rfl⟩ := ran
  refine ⟨rfl, Or.inr ⟨?_, valid, rfl⟩⟩
  simpa using find?_eq_none.mp lookup

end Applik8s.Authority
