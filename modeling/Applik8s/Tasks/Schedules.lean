import Applik8s.Lib.JsonText
import Applik8s.Platform

/-! `reconcileHatchetWorkflowSchedule` of `packages/runtime-hatchet/src/workflow-runtime-hatchet-schedule.ts`. A call
leaves a cron that it takes for the wanted one; but the fingerprint it knows it by covers neither the metadata nor the
priority of the invocations. -/
namespace Applik8s.Schedules
open List

/-- `canonicalJson`, `JSON.parse`, `JSON.stringify` and SHA-256. -/
structure Runtime where
  canonicalJson : Json → String
  parse : String → Json
  stringify : Json → String
  sha256 : String → String

structure Spec where
  id : String
  expression : String
  revision : String
  enabled : Bool
  input : Json

inductive Priority where
  | low | medium | high
  deriving DecidableEq

structure Metadata where
  idempotencyKey : Option String := none
  tenant : Option String := none
  correlationId : Option String := none
  causationId : Option String := none
  traceparent : Option String := none
  priority : Option Priority := none
  trustedContext : Option Json := none
  causalPrincipal : Option Json := none

structure CronRequest where
  name : Option String
  expression : String
  input : Json
  additionalMetadata : Option (Record Json)
  priority : Option Priority

structure Cron where
  id : String
  workflow : String
  enabled : Bool
  request : CronRequest

inductive Write where
  | delete (id : String)
  | create (request : CronRequest)

inductive Outcome where
  | created | unchanged | removed
  deriving DecidableEq

structure Result where
  id : String
  revision : String
  state : Outcome
  providerId : Option String

def maximumSchedulesPerIdentity : Nat := 16
def scheduleFingerprintKey : String := "applik8s.schedule.fingerprint"
def scheduleRevisionKey : String := "applik8s.schedule.revision"

def boundedScheduleString (value name : String) (maximumLength : Nat) : Except String String :=
  if blank value ∨ maximumLength < (codeUnits value).length then .error s!"applik8s-workflow-schedule-{name}-invalid"
  else .ok value

/-- `/^([-0-9*/,]+\s+){4}[-0-9*/,]+$/`: five fields with blanks between them. -/
def isCron (expression : List Char) : Bool :=
  let fields := expression.splitOnP isTrimmed
  fields.head? ≠ some [] && fields.getLast? ≠ some [] && (fields.filter (· ≠ [])).length = 5 &&
    fields.flatten.all fun c => c.isDigit || c ∈ ['-', '*', '/', ',']

def boundedCronExpression (value : String) : Except String String := do
  let expression ← boundedScheduleString value "expression" 200
  if isCron expression.toList then .ok expression else .error "applik8s-workflow-schedule-expression-invalid"

variable (runtime : Runtime) (provider : List Cron) (contract : String) (schedule : Spec) (metadata : Metadata)
  (fresh : String)

def boundedJsonObject (value : Json) (name : String) (maximumBytes : Nat) : Except String Json :=
  match value with
  | .object _ =>
    let encoded := runtime.canonicalJson value
    if maximumBytes < encoded.utf8ByteSize then .error s!"applik8s-workflow-schedule-{name}-too-large"
    else
      match runtime.parse encoded with
      | .object members => .ok (.object members)
      | _ => .error s!"applik8s-workflow-schedule-{name}-invalid"
  | _ => .error s!"applik8s-workflow-schedule-{name}-invalid"

def applicationMetadata : Except String (Record Json) :=
  let trustedContext := metadata.trustedContext.map runtime.stringify
  let causalPrincipal := metadata.causalPrincipal.map runtime.stringify
  if trustedContext.any (8192 < ·.utf8ByteSize) then
    .error "Workflow trusted context exceeds the bounded 8192-byte durable metadata limit."
  else if causalPrincipal.any (8192 < ·.utf8ByteSize) then
    .error "Workflow causal principal exceeds the bounded 8192-byte durable metadata limit."
  else
    .ok (([("applik8s.idempotency-key", metadata.idempotencyKey), ("applik8s.tenant", metadata.tenant),
      ("applik8s.correlation-id", metadata.correlationId), ("applik8s.causation-id", metadata.causationId),
      ("traceparent", metadata.traceparent), ("applik8s.trusted-context", trustedContext),
      ("applik8s.causal-principal", causalPrincipal)] : Record (Option String)).filterMap fun (name, value) =>
        (whenTruthy value).map fun text => (name, .string text))

/-- The input as it is sent, and the fingerprint of the request. -/
def prepare : Except String (Json × String) := do
  let _ ← boundedScheduleString schedule.id "id" 200
  let revision ← boundedScheduleString schedule.revision "revision" 500
  let expression ← if schedule.enabled then boundedCronExpression schedule.expression else .ok schedule.expression
  let input ← boundedJsonObject runtime schedule.input "input" (64 * 1024)
  .ok (input, runtime.sha256 (runtime.canonicalJson (.object [("contract", .string contract),
    ("expression", .string expression), ("input", input), ("revision", .string revision)])))

/-- The crons of the schedule's name, as the provider holds them and as it lists them. -/
def crons : List Cron := provider.filter fun cron => cron.workflow = contract && cron.request.name = some schedule.id

def listed : List Cron := (crons provider contract schedule).take (maximumSchedulesPerIdentity + 1)

/-- The only row, if it is taken for the wanted cron. -/
def matching (fingerprint : String) : List Cron → Option Cron
  | [row] =>
    if row.enabled && row.request.expression = schedule.expression &&
        row.request.additionalMetadata.bind (·.get scheduleFingerprintKey) = some (.string fingerprint) then
      some row
    else none
  | _ => none

/-- What a cron is created from. -/
def creation (input : Json) (fingerprint : String) : Except String CronRequest := do
  let application ← applicationMetadata runtime metadata
  .ok {
    name := schedule.id
    expression := schedule.expression
    input
    additionalMetadata :=
      (application.set scheduleRevisionKey (.string schedule.revision)).set scheduleFingerprintKey (.string fingerprint)
    priority := metadata.priority }

/-- What an uninterrupted call answers and writes; `fresh` is the id of the cron it creates. -/
def reconcile : Except String (Result × List Write) := do
  let (input, fingerprint) ← prepare runtime contract schedule
  let rows := listed provider contract schedule
  if maximumSchedulesPerIdentity < rows.length then
    .error s!"applik8s-workflow-schedule-duplicates-exceeded: {schedule.id}"
  else
    let deletes := rows.map fun row => .delete row.id
    if schedule.enabled then
      match matching schedule fingerprint rows with
      | some row => .ok (⟨schedule.id, schedule.revision, .unchanged, row.id⟩, [])
      | none => do
        let request ← creation runtime schedule metadata input fingerprint
        .ok (⟨schedule.id, schedule.revision, .created, fresh⟩, deletes ++ [.create request])
    else .ok (⟨schedule.id, schedule.revision, if rows = [] then .unchanged else .removed, none⟩, deletes)

/-- What the provider makes of a write. -/
def Write.apply (provider : List Cron) : Write → List Cron
  | .delete id => provider.filter (·.id ≠ id)
  | .create request => provider ++ [⟨fresh, contract, true, request⟩]

/-- What is asked of the crons that a call leaves. -/
structure Converges (after : List Cron) : Prop where
  held : if schedule.enabled then
      ∃ cron prepared, crons after contract schedule = [cron] ∧ prepare runtime contract schedule = .ok prepared ∧
        creation runtime schedule metadata prepared.1 prepared.2 = .ok cron.request
    else crons after contract schedule = []
  settled : ∀ fresh, ∃ providerId, reconcile runtime after contract schedule metadata fresh =
    .ok (⟨schedule.id, schedule.revision, .unchanged, providerId⟩, [])

/-- A cron that is taken for the wanted one is as it would be created. -/
def Spared : Prop :=
  schedule.enabled = true → ∀ prepared, prepare runtime contract schedule = .ok prepared →
    ∀ cron, matching schedule prepared.2 (crons provider contract schedule) = some cron →
      creation runtime schedule metadata prepared.1 prepared.2 = .ok cron.request

variable {runtime provider contract schedule metadata fresh} {prepared : Json × String}

/-- Of crons that are not too many the call reads all. -/
theorem reconcile_of (few : (crons provider contract schedule).length ≤ 16)
    (checked : prepare runtime contract schedule = .ok prepared) :
    reconcile runtime provider contract schedule metadata fresh =
      let deletes := (crons provider contract schedule).map fun row => .delete row.id
      if schedule.enabled then
        match matching schedule prepared.2 (crons provider contract schedule) with
        | some row => .ok (⟨schedule.id, schedule.revision, .unchanged, row.id⟩, [])
        | none => (creation runtime schedule metadata prepared.1 prepared.2).map fun req =>
          (⟨schedule.id, schedule.revision, .created, fresh⟩, deletes ++ [.create req])
      else
        .ok (⟨schedule.id, schedule.revision, if crons provider contract schedule = [] then .unchanged else .removed, none⟩,
          deletes) := by
  have all : listed provider contract schedule = crons provider contract schedule :=
    take_of_length_le (few.trans (Nat.le_succ _))
  simp only [reconcile, checked, all, Bind.bind, Except.bind, maximumSchedulesPerIdentity, Nat.not_lt.mpr few, if_false]
  split
  · split
    · rfl
    · cases creation runtime schedule metadata prepared.1 prepared.2 <;> rfl
  · rfl

theorem checks_of_ok (done : reconcile runtime provider contract schedule metadata fresh = .ok answer) :
    (∃ prepared, prepare runtime contract schedule = .ok prepared) ∧ (crons provider contract schedule).length ≤ 16 := by
  simp only [reconcile, Bind.bind, Except.bind] at done
  split at done
  · cases done
  next prepared checked =>
  refine ⟨⟨prepared, checked⟩, ?_⟩
  split at done
  · cases done
  next few =>
  simp only [listed, maximumSchedulesPerIdentity, length_take] at few
  omega

theorem foldl_deletes (rows : List Cron) (provider : List Cron) :
    (rows.map fun row => Write.delete row.id).foldl (Write.apply contract fresh) provider =
      provider.filter fun cron => rows.all (·.id ≠ cron.id) := by
  induction rows generalizing provider with
  | nil => simp
  | cons row rest ih =>
    simp only [map_cons, foldl_cons, ih, Write.apply, filter_filter, all_cons]
    refine filter_congr fun cron _ => ?_
    rw [Bool.and_comm]
    simp [eq_comm]

/-- Deleting the crons of a name leaves none. -/
theorem crons_deleted : crons (((crons provider contract schedule).map fun row => Write.delete row.id).foldl
    (Write.apply contract fresh) provider) contract schedule = [] := by
  rw [foldl_deletes, crons, filter_filter, filter_eq_nil_iff]
  intro cron held named
  simp only [Bool.and_eq_true, all_eq_true, decide_eq_true_eq] at named
  exact named.2 cron (mem_filter.mpr ⟨held, by simpa using named.1⟩) rfl

/-- What is created is taken for the wanted cron. -/
theorem matching_created (fresh contract : String)
    (made : creation runtime schedule metadata prepared.1 prepared.2 = .ok req) : req.name = some schedule.id ∧
      matching schedule prepared.2 [⟨fresh, contract, true, req⟩] = some ⟨fresh, contract, true, req⟩ := by
  simp only [creation, Bind.bind, Except.bind] at made
  split at made
  · cases made
  · cases made
    exact ⟨rfl, if_pos (by simp)⟩

theorem converges_iff_of_checks (checked : prepare runtime contract schedule = .ok prepared)
    (few : (crons provider contract schedule).length ≤ 16)
    (done : reconcile runtime provider contract schedule metadata fresh = .ok (res, writes)) :
    Converges runtime contract schedule metadata (writes.foldl (Write.apply contract fresh) provider) ↔
      Spared runtime provider contract schedule metadata := by
  rw [reconcile_of few checked] at done
  dsimp only at done
  by_cases enabled : schedule.enabled = true
  · rw [if_pos enabled] at done
    cases found : matching schedule prepared.2 (crons provider contract schedule) with
    | some row =>
      rw [found] at done
      cases done
      have only : crons provider contract schedule = [row] := by
        unfold matching at found
        split at found
        · split at found <;> simp_all
        · cases found
      have again : ∀ fresh, reconcile runtime provider contract schedule metadata fresh =
          .ok (⟨schedule.id, schedule.revision, .unchanged, row.id⟩, []) := fun fresh => by
        rw [reconcile_of few checked, if_pos enabled, found]
      constructor
      · rintro ⟨held, -⟩ _ other same cron taken
        cases checked.symm.trans same
        cases found.symm.trans taken
        rw [if_pos enabled] at held
        obtain ⟨cron, prepared, is, same, made⟩ := held
        cases only.symm.trans is
        cases checked.symm.trans same
        exact made
      · intro spared
        refine ⟨?_, fun fresh => ⟨_, again fresh⟩⟩
        rw [if_pos enabled]
        exact ⟨row, prepared, only, checked, spared enabled prepared checked row found⟩
    | none =>
      rw [found] at done
      cases made : creation runtime schedule metadata prepared.1 prepared.2 with
      | error => simp [made, Except.map] at done
      | ok req =>
        simp only [made, Except.map, Except.ok.injEq, Prod.mk.injEq] at done
        obtain ⟨rfl, rfl⟩ := done
        obtain ⟨named, matched⟩ := matching_created fresh contract made
        have after : crons ((((crons provider contract schedule).map fun row => Write.delete row.id) ++
            [Write.create req]).foldl (Write.apply contract fresh) provider) contract schedule =
              [⟨fresh, contract, true, req⟩] := by
          rw [foldl_append]
          change crons (_ ++ [_]) contract schedule = _
          rw [crons, filter_append, ← crons, crons_deleted]
          simp [named]
        refine iff_of_true ⟨?_, fun _ => ⟨some fresh, ?_⟩⟩ ?_
        · rw [if_pos enabled]
          exact ⟨_, prepared, after, checked, made⟩
        · rw [reconcile_of (by rw [after]; simp) checked, if_pos enabled, after, matched]
        · intro _ other same cron taken
          cases checked.symm.trans same
          cases found.symm.trans taken
  · rw [if_neg enabled] at done
    cases done
    refine iff_of_true ⟨?_, fun _ => ⟨none, ?_⟩⟩ fun on => absurd on enabled
    · rw [if_neg enabled]
      exact crons_deleted
    · rw [reconcile_of (by simp [crons_deleted]) checked, if_neg enabled, crons_deleted]
      rfl

/-- A call that returns leaves the crons as asked exactly where the one that it takes for the wanted cron, if there is
such, is as it would be created. -/
theorem reconciled_iff (runtime : Runtime) (provider : List Cron) (contract : String) (schedule : Spec)
    (metadata : Metadata) (fresh : String) (result : Result) (writes : List Write)
    (done : reconcile runtime provider contract schedule metadata fresh = .ok (result, writes)) :
    Converges runtime contract schedule metadata (writes.foldl (Write.apply contract fresh) provider) ↔
      Spared runtime provider contract schedule metadata := by
  obtain ⟨⟨_, checked⟩, few⟩ := checks_of_ok done
  exact converges_iff_of_checks checked few done

def sample : Runtime where
  canonicalJson value := String.ofList (Lib.JsonText.stringify value)
  parse _ := .object []
  stringify value := String.ofList (Lib.JsonText.stringify value)
  sha256 _ := "d41f8e68b8486d631caedd7c7f6a2e72a569f74fdda45167433611f9c8cc0fad"

def daily : Spec := ⟨"daily", "0 7 * * *", "1", true, .object []⟩

/-- The cron that a first call with low priority creates. -/
def lowered : Cron where
  id := "cron-1"
  workflow := "mail.digest"
  enabled := true
  request :=
    { name := "daily", expression := "0 7 * * *", input := .object []
      additionalMetadata := some [(scheduleRevisionKey, .string "1"), (scheduleFingerprintKey, .string (sample.sha256 ""))]
      priority := some .low }

theorem reconciled_first : Converges sample "mail.digest" daily { priority := some .low } [lowered] :=
  (reconciled_iff sample [] "mail.digest" daily { priority := some .low } "cron-1" _ [.create lowered.request] rfl).mpr
    fun _ _ _ _ found => nomatch found

/-- The second call asks for high priority. -/
theorem priority_kept : reconcile sample [] "mail.digest" daily { priority := some .low } "cron-1" =
      .ok (⟨"daily", "1", .created, some "cron-1"⟩, [.create lowered.request]) ∧
    reconcile sample [lowered] "mail.digest" daily { priority := some .high } "cron-2" =
      .ok (⟨"daily", "1", .unchanged, some "cron-1"⟩, []) ∧
    ¬ Converges sample "mail.digest" daily { priority := some .high } [lowered] := by
  refine ⟨rfl, rfl, fun ⟨held, _⟩ => ?_⟩
  obtain ⟨cron, prepared, only, -, made⟩ := held
  cases only
  cases congrArg (Except.map CronRequest.priority) made

end Applik8s.Schedules
