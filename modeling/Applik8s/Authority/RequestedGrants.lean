import Applik8s.Authority.GrantAttenuation
import Applik8s.Authority.GrantPermanence

/-! Whether an approved grant can authorize more than was requested, and how often a
request is decided.

A decision compares the grant's operations, scope, outcome, number of uses and expiry
with the request it answers. The audiences and transports of the request are compared
with nothing, and the expiries as texts. Requests are written by `requestGrant`, under a
fresh id, and by `decideGrantRequest`, over a pending one. -/
namespace Applik8s.Authority
open List Bool Nat
open Lib (Table)
open Lib.Program (exec_relates exec_bind_ok exec_check_bind_ok)
variable {dates : Dates} {now : Int} {before after : World} {request : GrantRequestRecord} {grant : GrantRecord}
  {requestId : String} {decision : GrantDecision}

/-- The request asks for the `count`-th use of the operation in these circumstances. -/
structure GrantRequestRecord.Asks (dates : Dates) (request : GrantRequestRecord) (operationId : OperationId)
    (audience : String) (transport : OperationTransport) (instant : Int) (count : Nat) : Prop where
  operation : operationId ∈ request.operationIds
  audience : admits request.audiences audience = true
  transport : admits request.transports transport = true
  unexpired : isExpired dates request.requestedExpiresAt instant = false
  uses : ∀ maximumUses ∈ request.requestedMaximumUses, count ≤ maximumUses

/-- The grant has a `count`-th use. -/
def GrantRecord.Affords (grant : GrantRecord) (count : Nat) : Prop :=
  0 < count ∧ ∀ maximumUses ∈ grant.maximumUses, count ≤ maximumUses

def Contained (dates : Dates) (grant : GrantRecord) (request : GrantRequestRecord) : Prop :=
  ∀ operationId audience transport instant count,
    grant.Accepts dates operationId audience transport instant → grant.Affords count →
      request.Asks dates operationId audience transport instant count

/-- The grant lists audiences and transports of the request where the request does, and
expires no later. -/
structure Restricts (dates : Dates) (grant : GrantRecord) (request : GrantRequestRecord) : Prop where
  audiences : ∀ asked ∈ request.audiences, ∃ listed ∈ grant.audiences, listed ⊆ asked
  transports : ∀ asked ∈ request.transports,
    (∃ listed ∈ grant.transports, listed ⊆ asked) ∨ ∀ transport, transport ∈ asked
  expiry : ∀ limit, request.requestedExpiresAt.bind dates.parse = some limit →
    ∃ expiry, grant.expiresAt.bind dates.parse = some expiry ∧ expiry ≤ limit

def Useless (grant : GrantRecord) : Prop := Inert grant ∨ grant.maximumUses = some 0

/-! ### What a decision compares -/

/-- The comparison of a grant with the request it answers. -/
structure Conforms (grant : GrantRecord) (request : GrantRequestRecord) : Prop where
  operations : ∀ operationId ∈ grant.operationIds, operationId ∈ request.operationIds
  scope : denotation grant.scope ⊆ denotation request.scope
  uses : ∀ asked ∈ request.requestedMaximumUses, ∃ maximumUses ∈ grant.maximumUses, maximumUses ≤ asked
  outcome : grant.outcomeId = request.requiredOutcomeId

private theorem bounded_of_compared (compared : ¬ (asked.isSome = true ∧ (given = none ∨ exceeds given asked = true))) :
    ∀ bound ∈ asked, ∃ count ∈ given, count ≤ bound := by
  intro bound listed
  cases listed
  cases given with
  | none => simp at compared
  | some count =>
    refine ⟨count, rfl, ?_⟩
    simpa [exceeds] using compared

theorem conforms_of_decided (valid : validateDecidedGrant req grant state = .ok ()) : Conforms grant req := by
  simp only [validateDecidedGrant, checks_ok, refuseIf_ok, assertSubset_ok, assertScopeNotBroader_ok] at valid
  obtain ⟨_, _, _, ops, _, scope, _, uses, _, _, _, out, _⟩ := valid
  refine ⟨ops, fun valuation holds => ?_, bounded_of_compared uses, (not_not.mp out).symm⟩
  have normalized := (satisfies_normalize grant.scope).mpr holds
  exact (satisfies_normalize req.scope).mp (satisfies_of_provableSubset _ _ scope normalized)

/-! ### When the uses are contained -/

private theorem admits_mono_iff {τ : Type} [DecidableEq τ] {given asked : Option (List τ)} :
    (∀ item, admits given item = true → admits asked item = true) ↔
      ∀ limit ∈ asked, (∃ listed ∈ given, listed ⊆ limit) ∨ (given = none ∧ ∀ item, item ∈ limit) := by
  cases asked with
  | none => simp [admits]
  | some limit => cases given <;> simp [admits, subset_def]

private theorem audiences_mono_iff {given : Option (List String)} :
    (∀ audience, admits given audience = true → admits asked audience = true) ↔
      ∀ limit ∈ asked, ∃ listed ∈ given, listed ⊆ limit := by
  rw [admits_mono_iff]
  refine forall_congr' fun limit => imp_congr_right fun _ => or_iff_left ?_
  rintro ⟨_, all⟩
  obtain ⟨audience, outside⟩ := Infinite.exists_notMem_finset limit.toFinset
  exact outside (by simpa using all audience)

private theorem transports_mono_iff {given : Option (List OperationTransport)} :
    (∀ transport, admits given transport = true → admits asked transport = true) ↔
      ∀ limit ∈ asked, (∃ listed ∈ given, listed ⊆ limit) ∨ ∀ transport, transport ∈ limit := by
  rw [admits_mono_iff]
  refine forall_congr' fun limit => imp_congr_right fun _ => ?_
  constructor
  · exact Or.imp_right And.right
  rintro (listed | all)
  · exact Or.inl listed
  · cases given with
    | none => exact Or.inr ⟨rfl, all⟩
    | some listed => exact Or.inl ⟨listed, rfl, fun transport _ => all transport⟩

theorem contained_iff (nonempty : grant.operationIds ≠ []) (conforms : Conforms grant req) :
    Contained dates grant req ↔ Useless grant ∨ Restricts dates grant req := by
  constructor
  · intro contained
    by_cases useless : Useless grant
    · exact Or.inl useless
    right
    unfold Useless Inert at useless
    push Not at useless
    obtain ⟨⟨active, audiencesLeft, transportsLeft⟩, usesLeft⟩ := useless
    have unrevoked : truthy grant.revokedAt = false := by simpa using active
    obtain ⟨opId, op⟩ := exists_mem_of_ne_nil _ nonempty
    obtain ⟨audience, audienceOk⟩ : ∃ audience, admits grant.audiences audience = true :=
      exists_admitted audiencesLeft
    obtain ⟨transport, transportOk⟩ := exists_admitted transportsLeft
    obtain ⟨instant, alive⟩ := exists_unexpired dates grant.expiresAt
    have live := isLive_iff.mpr ⟨unrevoked, alive⟩
    have once : grant.Affords 1 := by
      refine ⟨one_pos, fun maximumUses bounded => one_le_iff_ne_zero.mpr ?_⟩
      rintro rfl
      exact usesLeft bounded
    refine ⟨audiences_mono_iff.mp fun other admitted => ?_, transports_mono_iff.mp fun other admitted => ?_,
      unexpired_mono_iff.mp fun later outlives => ?_⟩
    · exact (contained opId other transport instant 1 ⟨op, admitted, transportOk, live⟩ once).audience
    · exact (contained opId audience other instant 1 ⟨op, audienceOk, admitted, live⟩ once).transport
    · exact (contained opId audience transport later 1
        ⟨op, audienceOk, transportOk, isLive_iff.mpr ⟨unrevoked, outlives⟩⟩ once).unexpired
  · rintro (useless | restricts) _ audience transport instant _ ⟨op, audienceOk, transportOk, live⟩ ⟨positive, afforded⟩
    · obtain ⟨unrevoked, _⟩ := isLive_iff.mp live
      rcases useless with (revoked | empty | empty) | unused
      · simp [revoked] at unrevoked
      · simp [empty, admits] at audienceOk
      · simp [empty, admits] at transportOk
      · exact absurd positive (not_lt.mpr (afforded 0 unused))
    · obtain ⟨_, alive⟩ := isLive_iff.mp live
      refine ⟨conforms.operations _ op, audiences_mono_iff.mpr restricts.audiences audience audienceOk,
        transports_mono_iff.mpr restricts.transports transport transportOk,
        unexpired_mono_iff.mpr restricts.expiry instant alive, fun asked listed => ?_⟩
      obtain ⟨maximumUses, bounded, below⟩ := conforms.uses asked listed
      exact (afforded maximumUses bounded).trans below

/-! ### What a decision writes -/

structure Decided (before after : Repository) (decision : GrantDecision) (request : GrantRequestRecord) :
    Prop where
  requests : ∃ decided, decided.id = request.id ∧ after.requests = before.requests.put decided
  grants : ∀ grant ∈ decision.grant, after.grants = before.grants.put grant

private theorem storeDecidedGrant_none :
    execute (storeDecidedGrant dates now req none state) before = (.ok (), before) := rfl

private theorem storeDecidedGrant_some
    (ran : execute (storeDecidedGrant dates now req (some grant) state) before = (.ok value, after)) :
    validateDecidedGrant req grant state = .ok () ∧ validateGrant dates now grant state true = .ok () ∧
      after = before.write (Repository.storeGrant dates now grant) := by
  obtain ⟨_, conforms, stored⟩ := exec_check_bind_ok.mp ran
  obtain ⟨_, valid, written⟩ := exec_check_bind_ok.mp stored
  have puts : execute (putGrant dates now grant) before =
      (.ok (), before.write (Repository.storeGrant dates now grant)) := execute_storeGrant grant
  exact ⟨conforms, valid, congrArg Prod.snd (written.symm.trans puts)⟩

private theorem storeDecidedGrant_ok
    (ran : execute (storeDecidedGrant dates now req given state) before = (.ok value, after)) :
    (∀ grant ∈ given, validateDecidedGrant req grant state = .ok () ∧
        validateGrant dates now grant state true = .ok () ∧
        after.repository.grants = before.repository.grants.put grant) ∧
      after.repository.requests = before.repository.requests := by
  cases given with
  | none =>
    rw [storeDecidedGrant_none] at ran
    have same : before = after := congrArg Prod.snd ran
    subst same
    exact ⟨fun _ absent => absurd absent (Option.not_mem_none _), rfl⟩
  | some grant =>
    obtain ⟨conforms, valid, same⟩ := storeDecidedGrant_some ran
    subst same
    refine ⟨fun other given => ?_, rfl⟩
    obtain rfl : grant = other := Option.some.inj given
    exact ⟨conforms, valid, rfl⟩

variable {result : GrantRequestRecord}

theorem decideGrantRequest_ok
    (ran : execute (decideGrantRequest dates now requestId decision) before = (.ok res, after)) :
    ∃ req ∈ before.repository.requests.rows, req.id = requestId ∧ ((req.state ≠ .pending ∧ after = before) ∨
        req.state = .pending ∧ decision.approval.approver.id ≠ req.requester.id ∧
          (∀ grant ∈ decision.grant, validateDecidedGrant req grant before.repository.snapshot = .ok () ∧
            validateGrant dates now grant before.repository.snapshot true = .ok ()) ∧
          Decided before.repository after.repository decision req) := by
  rw [decideGrantRequest, execute_snapshot_bind] at ran
  rw [exec_check_bind_ok] at ran
  obtain ⟨req, lookup, ran⟩ := ran
  rw [found_ok] at lookup
  have listed : req ∈ before.repository.requests.rows := mem_of_find?_eq_some lookup
  have named : req.id = requestId := by simpa using find?_some lookup
  refine ⟨req, listed, named, ?_⟩
  split at ran
  · rename_i closed
    rw [exec_check_bind_ok] at ran
    obtain ⟨_, _, ran⟩ := ran
    cases ran
    exact Or.inl ⟨closed, rfl⟩
  rename_i pending
  rw [exec_check_bind_ok] at ran
  obtain ⟨_, _, ran⟩ := ran
  rw [exec_check_bind_ok] at ran
  obtain ⟨_, independent, ran⟩ := ran
  rw [exec_check_bind_ok] at ran
  obtain ⟨_, _, ran⟩ := ran
  rw [exec_check_bind_ok] at ran
  obtain ⟨_, _, ran⟩ := ran
  rw [exec_bind_ok] at ran
  obtain ⟨_, _, stored, ran⟩ := ran
  obtain ⟨valid, reqs⟩ := storeDecidedGrant_ok stored
  cases ran
  refine Or.inr ⟨not_not.mp pending, refuseIf_ok.mp independent,
    fun grant given => ⟨(valid grant given).1, (valid grant given).2.1⟩, ?_⟩
  refine ⟨⟨{ req with
    state := if decision.approval.decision = .approve then .approved else .rejected
    decidedAt := some decision.approval.decidedAt }, rfl, ?_⟩, fun grant given => (valid grant given).2.2⟩
  exact congrArg (fun reqs : Table GrantRequestRecord => reqs.put _) reqs

/-! ### Requests over a run -/

/-- Every request is still stored, and as it was once it is decided. -/
def RequestsKept (earlier later : Repository) : Prop :=
  ∀ request ∈ earlier.requests.rows, ∃ current ∈ later.requests.rows, current.id = request.id ∧
    (request.state ≠ .pending → current = request)

theorem RequestsKept.of_eq (same : later.requests = earlier.requests) : RequestsKept earlier later :=
  fun req stored => ⟨req, by rwa [same], rfl, fun _ => rfl⟩

theorem RequestsKept.put (open_ : ∀ stored ∈ earlier.requests.rows, stored.id = record.id → stored.state = .pending)
    (written : later.requests = earlier.requests.put record) : RequestsKept earlier later := by
  intro req stored
  rw [written]
  by_cases same : req.id = record.id
  · exact ⟨record, Table.mem_put.mpr (Or.inl rfl), same.symm, fun decided => absurd (open_ req stored same) decided⟩
  · exact ⟨req, Table.mem_put.mpr (Or.inr ⟨stored, same⟩), rfl, fun _ => rfl⟩

section
variable {α : Type}

private theorem answer_spares_requests (spares : call.area ≠ .requests) (world : World) :
    (answer call world).2.repository.requests = world.repository.requests := by
  cases call with
  | putRequest record => exact absurd rfl spares
  | _ => rfl

private theorem requestsKept_transaction
    (succeeds : ∀ value after, execute work before = (.ok value, after) → RequestsKept before.repository after.repository)
    : RequestsKept before.repository ((transaction work respond).serial memory before).2.repository := by
  generalize ended : (transaction work respond).serial memory before = out
  obtain ⟨_ | _, after⟩ := out
  · exact .of_eq (congrArg Repository.requests (serial_transaction_error ended).1)
  · obtain ⟨value, ran, _⟩ := serial_transaction_ok.mp ended
    exact succeeds value after ran

private theorem requestsKept_confined (confined : Confined areas process) (spares : Area.requests ∉ areas) :
    RequestsKept before.repository (process.serial memory before).2.repository :=
  .of_eq (confined.keeps (fun first second => second.requests = first.requests) spares nofun (fun _ => rfl)
    (fun earlier later => later.trans earlier) (fun _ world outside => answer_spares_requests outside world) before)

end

private theorem requestGrant_ok (ran : execute (requestGrant dates now record) before = (.ok res, after)) :
    RequestsKept before.repository after.repository := by
  obtain ⟨_, _, checked⟩ := exec_check_bind_ok.mp ran
  obtain ⟨_, _, valid⟩ := exec_check_bind_ok.mp checked
  change execute (Calls.snapshot >>= _) before = _ at valid
  rw [execute_snapshot_bind] at valid
  split at valid
  · obtain ⟨_, _, same⟩ := exec_check_bind_ok.mp valid
    cases same
    exact .of_eq rfl
  rename_i lookup
  have fresh : ∀ stored ∈ before.repository.snapshot.requests, stored.id ≠ record.id := by
    simpa using find?_eq_none.mp lookup
  cases valid
  exact .put (fun stored member same => absurd same (fresh stored member)) rfl

private theorem requestsKept_decided
    (ran : execute (decideGrantRequest dates now requestId decision) before = (.ok res, after)) :
    RequestsKept before.repository after.repository := by
  obtain ⟨req, listed, _, ⟨_, rfl⟩ | ⟨pending, _, _, ⟨_, same, written⟩, _⟩⟩ := decideGrantRequest_ok ran
  · exact .of_eq rfl
  refine .put (fun stored member clash => ?_) written
  have whole : stored = req := Table.eq_of_key_eq member listed (clash.trans same)
  rw [whole]
  exact pending

theorem advance_keeps_requests (dates : Dates) (before : World) (submission : Submission) :
    RequestsKept before.repository (advance dates before submission).repository := by
  obtain ⟨now, op⟩ := submission
  cases op with
  | requestGrant record => exact requestsKept_transaction fun _ _ => requestGrant_ok
  | decideGrantRequest => exact requestsKept_transaction fun _ _ => requestsKept_decided
  | migrateGrantCatalog grantId older newer nextRev =>
    have kept : RequestsKept before.repository ((transaction (migrateCatalogAuthority dates now older newer nextRev)
          .snapshot).serial memory before).2.repository :=
      requestsKept_confined (.transaction migrateCatalogAuthority_within) (by decide)
    change RequestsKept _ ((guarded (assertMigratableGrant grantId older.revision _) _).serial memory before).2.repository
    cases assertMigratableGrant grantId older.revision (memory.observe before) with
    | error error => exact .of_eq rfl
    | ok value => exact kept
  | _ => exact requestsKept_confined (confined_process dates now id) (by simp [Operation.writes])

def awaits (repository : Repository) (requestId : String) : Bool :=
  repository.requests.rows.any fun request => request.id = requestId ∧ request.state = .pending

/-- How often the request leaves the pending state over a run. -/
def departures (dates : Dates) (requestId : String) (world : World) : List Submission → Nat
  | [] => 0
  | submission :: rest =>
    let next := advance dates world submission
    (if awaits world.repository requestId && !awaits next.repository requestId then 1 else 0) +
      departures dates requestId next rest

private theorem awaits_iff : awaits repo requestId = true ↔
      ∃ req ∈ repo.requests.rows, req.id = requestId ∧ req.state = .pending := by
  simp [awaits]

private theorem departures_of_decided (stored : req ∈ world.repository.requests.rows)
    (decided : req.state ≠ .pending) : departures dates req.id world labels = 0 := by
  induction labels generalizing world with
  | nil => rfl
  | cons submission rest ih =>
    obtain ⟨cur, present, _, same⟩ := advance_keeps_requests dates world submission req stored
    obtain rfl := same decided
    have settled : awaits world.repository cur.id = false := by
      rw [← Bool.not_eq_true, awaits_iff]
      rintro ⟨_, listed, named, pending⟩
      exact decided (Table.eq_of_key_eq listed stored named ▸ pending)
    simp only [departures, settled, Bool.false_and, Bool.false_eq_true, if_false, Nat.zero_add]
    exact ih present

theorem departures_le_one (dates : Dates) (requestId : String) (world : World) (labels : List Submission) :
    departures dates requestId world labels ≤ 1 := by
  induction labels generalizing world with
  | nil => exact zero_le 1
  | cons submission rest ih =>
    rw [departures]
    split
    · rename_i left
      rw [and_eq_true, awaits_iff, not_eq_true', ← not_eq_true, awaits_iff] at left
      obtain ⟨⟨req, stored, rfl, _⟩, gone⟩ := left
      obtain ⟨cur, present, named, _⟩ := advance_keeps_requests dates world submission req stored
      have decided : cur.state ≠ .pending := fun pending => gone ⟨cur, present, named, pending⟩
      rw [← named, departures_of_decided present decided]
    · rw [Nat.zero_add]
      exact ih _

/-- A grant materialized by a decision keeps the scope and the outcome of the pending
request it answers, is approved by someone else than the requester, and leaves the
request decided for good. Its uses are those that were asked for exactly when it has none
or lists and limits what the request lists and limits. -/
theorem approved_grant_contained_iff (dates : Dates) (now : Int) (before : World) (request : GrantRequestRecord)
    (decision : GrantDecision) (grant : GrantRecord) (stored : request ∈ before.repository.requests.rows)
    (pending : request.state = .pending) (materializes : decision.grant = some grant)
    (accepted : (serve dates before ⟨now, .decideGrantRequest request.id decision⟩).1.isOk = true) :
    grant ∈ (advance dates before ⟨now, .decideGrantRequest request.id decision⟩).repository.grants.rows ∧
      (Contained dates grant request ↔ Useless grant ∨ Restricts dates grant request) ∧
      denotation grant.scope ⊆ denotation request.scope ∧ grant.outcomeId = request.requiredOutcomeId ∧
      decision.approval.approver.id ≠ request.requester.id ∧
      ∀ labels, departures dates request.id before labels ≤ 1 := by
  obtain ⟨result, after, ran⟩ := serial_transaction_isOk.mp accepted
  have served : (serve dates before ⟨now, .decideGrantRequest request.id decision⟩).2 = after :=
    congrArg Prod.snd (serial_transaction_ok.mpr ⟨result, ran, rfl⟩)
  obtain ⟨found, listed, named, ⟨closed, _⟩ | ⟨_, independent, valid, decided⟩⟩ := decideGrantRequest_ok ran
  all_goals obtain rfl : found = request := Table.eq_of_key_eq listed stored named
  · exact absurd pending closed
  obtain ⟨conforming, validated⟩ := valid grant materializes
  have conforms := conforms_of_decided conforming
  obtain ⟨_, _, _, _, nonempty, _⟩ := validateGrant_runtime_ok validated
  refine ⟨?_, contained_iff nonempty conforms, conforms.scope, conforms.outcome, independent,
    departures_le_one dates found.id before⟩
  change grant ∈ (serve dates before _).2.repository.grants.rows
  rw [served, decided.grants grant materializes]
  exact Table.mem_put.mpr (Or.inl rfl)

/-- The clerk asked for the audience `web` only. -/
def askedWorld : World :=
  advance utcDates ownerWorld ⟨sampleInstant, .requestGrant { clerkRequest with audiences := some ["web"] }⟩

def clerkApproval (audiences : Option (List String)) : GrantDecision :=
  { clerkDecision "clerk-orders" with
    grant := some { sampleGrant "clerk-orders" "clerk" with audiences := audiences } }

theorem approved_web_grant_contained :
    Contained utcDates { sampleGrant "clerk-orders" "clerk" with audiences := some ["web"] }
        { clerkRequest with audiences := some ["web"] } ↔
      Useless { sampleGrant "clerk-orders" "clerk" with audiences := some ["web"] } ∨
        Restricts utcDates { sampleGrant "clerk-orders" "clerk" with audiences := some ["web"] }
          { clerkRequest with audiences := some ["web"] } :=
  (approved_grant_contained_iff utcDates sampleInstant askedWorld
    { clerkRequest with audiences := some ["web"] } (clerkApproval (some ["web"]))
    { sampleGrant "clerk-orders" "clerk" with audiences := some ["web"] }
    (by decide +kernel) rfl rfl (by decide +kernel)).2.1

/-- A grant without audiences is approved for a request for `web` only, and accepts every
audience. -/
theorem approved_grant_can_exceed :
    ¬ ∀ (dates : Dates) (now : Int) (before : World) (request : GrantRequestRecord) (decision : GrantDecision)
      (grant : GrantRecord), request ∈ before.repository.requests.rows → request.state = .pending →
      decision.grant = some grant →
      (serve dates before ⟨now, .decideGrantRequest request.id decision⟩).1.isOk = true →
      Contained dates grant request := by
  intro claimed
  have contained := claimed utcDates sampleInstant askedWorld { clerkRequest with audiences := some ["web"] }
    (clerkApproval none) (sampleGrant "clerk-orders" "clerk") (by decide +kernel) rfl rfl (by decide +kernel)
  have asked := (contained "orders.update" "batch" .http sampleInstant 1
    ⟨by decide, by decide, by decide, by decide⟩ ⟨by decide, nofun⟩).audience
  simp [admits] at asked

end Applik8s.Authority
