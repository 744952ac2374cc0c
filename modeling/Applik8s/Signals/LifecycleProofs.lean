import Applik8s.Signals.MemoryProofs
import Applik8s.Signals.PostgresProofs
import Applik8s.Signals.Relay

/-! The lifecycle of signals over whole runs, in both stores and through the relay. -/
namespace Applik8s.Signals
open Lib

/-- The occurrence keys a run of the memory store issues. -/
def submittedKeys (events : List MemoryEvent) : Set String :=
  {key | ∃ operation : Operation, .submit operation ∈ events ∧ key ∈ operation.issues}

structure MemoryLifecycle (host : Host) (events : List MemoryEvent) : Prop where
  /-- One signal for each occurrence, and for each signal the facts its state calls for. -/
  orderly : (runFrom (MemoryDesk.advance host) .fresh events).world.ledger.Orderly host
  /-- From any point of the run on, nothing that was decided or announced is taken back. -/
  follows : ∀ earlier later, events = earlier ++ later →
    (runFrom (MemoryDesk.advance host) .fresh earlier).world.ledger.Follows
      (runFrom (MemoryDesk.advance host) .fresh events).world.ledger
  /-- An issuance that succeeds answers with the signal of its occurrence. -/
  answered : ∀ call ∈ (runFrom (MemoryDesk.advance host) .fresh events).settled, ∀ answer,
    call.result = .ok answer → call.operation.Answered host call.final.ledger.signals answer
  /-- A call leaves a signal alone for which a callback of it fails. -/
  refused : ∀ call ∈ (runFrom (MemoryDesk.advance host) .fresh events).settled, ∀ id,
    call.operation.Refuses host call.origin.ledger id → Ledger.Unchanged id call.origin.ledger call.final.ledger

def begunKeys {host : PostgresHost} (events : List (SignalEvent host)) : Set String :=
  {key | ∃ client, ∃ operation : Operation, .begin client (.mutate operation) ∈ events ∧
    key ∈ operation.issues}

/-- What a run of the PostgreSQL store keeps to. `Stores` determines the ledger of a
state of the tables up to the order of its facts. -/
structure PostgresLifecycle (host : PostgresHost) (events : List (SignalEvent host)) : Prop where
  orderly : ∃ ledger, Stores host (begunKeys events)
    (runFrom (SignalDatabase.advance host) (.fresh host) events).rows ledger ∧ ledger.Orderly host.toHost
  follows : ∀ earlier later, events = earlier ++ later → ∀ ledger,
    Stores host (begunKeys events) (runFrom (SignalDatabase.advance host) (.fresh host) earlier).rows ledger →
    ∃ now, Stores host (begunKeys events)
      (runFrom (SignalDatabase.advance host) (.fresh host) events).rows now ∧ ledger.Follows now
  answered : ∀ call ∈ (runFrom (SignalDatabase.advance host) (.fresh host) events).closed,
    ∀ operation answer, call.operation = .mutate operation → call.result = .ok (some answer) →
      operation.Answered host.toHost (signalsOf host call.after) answer
  refused : ∀ call ∈ (runFrom (SignalDatabase.advance host) (.fresh host) events).closed,
    ∀ operation, call.operation = .mutate operation → ∀ ledger id,
      Stores host (begunKeys events) call.before ledger → operation.Refuses host.toHost ledger id →
      ∃ later, Stores host (begunKeys events) call.after later ∧ Ledger.Unchanged id ledger later
  /-- A transaction that fails leaves everything as it was. -/
  failed : ∀ call ∈ (runFrom (SignalDatabase.advance host) (.fresh host) events).closed, ∀ failure,
    call.result = .error failure → call.after = call.before

private theorem memory_observed (distinct : Collisionless host (submittedKeys events)) :
    (memoryDiscipline host (submittedKeys events) distinct (.none host _)).Observed MemoryDesk.fresh events := by
  refine eachStep_of_always fun event member desk => ?_
  cases event with
  | submit op => exact fun key issued => ⟨op, member, issued⟩
  | turn => exact fun _ _ _ => trivial
  | disturb ids => trivial

private theorem memory_start (distinct : Collisionless host known) :
    (memoryDiscipline host known distinct (.none host _)).Kept MemoryDesk.fresh :=
  Discipline.kept_idle _ ⟨MemoryStore.consistent_empty, trivial⟩

theorem memory_entries (distinct : Collisionless host (submittedKeys (earlier ++ later))) :
    (runFrom (MemoryDesk.advance host) .fresh earlier).world.ledger.Entries host
      (runFrom (MemoryDesk.advance host) .fresh (earlier ++ later)).world.ledger := by
  let discipline := memoryDiscipline host _ distinct (.none host _)
  obtain ⟨first, second⟩ := eachStep_append.mp (memory_observed distinct)
  rw [runFrom_append]
  refine discipline.run_relates (fun before after => before.ledger.Entries host after.ledger)
    (fun store => .refl) .trans (fun kept advances => ?_)
    (fun {ids store} _ => (acknowledge_undisturbed ids store).ledger ▸ .refl)
    (discipline.run_kept (memory_start distinct) first) second
  obtain ⟨_, same | enters⟩ := advances kept.1
  · exact same ▸ .refl
  · exact .single enters.entry

theorem memory_lifecycle (distinct : Collisionless host (submittedKeys events)) : MemoryLifecycle host events := by
  have kept := Discipline.run_kept _ (memory_start distinct) (memory_observed distinct)
  refine ⟨kept.invariant.1.orderly, ?_, fun call settled => (kept.settled call settled).2,
    fun call settled => (kept.settled call settled).1.2⟩
  rintro _ _ rfl
  obtain ⟨first, _⟩ := eachStep_append.mp (memory_observed distinct)
  have orderly := (Discipline.run_kept _ (memory_start distinct) first).invariant.1.orderly
  exact (Ledger.entries_orderly orderly (memory_entries distinct)).2

variable {host : PostgresHost} {events : List (SignalEvent host)}

theorem postgres_observed (distinct : Collisionless host.toHost (begunKeys events)) :
    (signalRegime host (begunKeys events) distinct (.none host.toHost _)).Observed (SignalDatabase.fresh host)
      events := by
  refine eachStep_of_always fun event member db => ?_
  cases event with
  | begin client step =>
    rintro _ op rfl
    exact ⟨fun key issued => ⟨client, op, member, issued⟩, trivial⟩
  | step => trivial
  | lose client => trivial

theorem postgres_start (distinct : Collisionless host.toHost known) :
    (signalRegime host known distinct (.none host.toHost _)).Kept (SignalDatabase.fresh host) :=
  Regime.kept_idle _ ⟨⟨.empty, stores_empty⟩, trivial⟩

theorem postgres_lifecycle
    (distinct : Collisionless host.toHost (begunKeys events)) : PostgresLifecycle host events := by
  have observed := postgres_observed distinct
  have start := postgres_start distinct
  obtain ⟨kept, _⟩ := Regime.run_kept start observed
  obtain ⟨ledger, stores⟩ := kept.invariant.1
  refine ⟨⟨ledger, stores, stores.orderly⟩, ?_, fun call closed => (kept.closed call closed).outcome.answered, ?_,
    fun call closed => (kept.closed call closed).outcome.failed⟩
  · rintro _ later rfl ledger stores
    obtain ⟨first, second⟩ := eachStep_append.mp observed
    obtain ⟨middle, _⟩ := Regime.run_kept start first
    obtain ⟨_, related⟩ := Regime.run_kept middle second
    rw [runFrom_append]
    obtain ⟨now, stored, entries⟩ := related ledger stores
    exact ⟨now, stored, (Ledger.entries_orderly stores.orderly entries).2⟩
  · intro call closed op same ledger id stores refuses
    obtain ⟨later, stored, entered⟩ := (kept.closed call closed).outcome.enters ledger stores
    rw [same] at entered
    exact ⟨later, stored, Operation.unchanged_of_entersAll entered refuses⟩

def sampleDigest : String → String
  | "signal\x00approval-1" => "310d74a3d1df6ce56bca0a344fcec6b9b0348eb062aab227d1f1bb02d955307c"
  | "310d74a3d1df6ce56bca0a344fcec6b9b0348eb062aab227d1f1bb02d955307c\x00issued" =>
    "3b8a6360bfddd8a992c4d6045dcb7778c79eadea12c6288bc37fd0549bb8afbb"
  | "310d74a3d1df6ce56bca0a344fcec6b9b0348eb062aab227d1f1bb02d955307c\x00resolved" =>
    "97b333e5e5c23fd8064af1ade31a0517c4e34b56877a3ac1764fb1ca3a87513e"
  | "310d74a3d1df6ce56bca0a344fcec6b9b0348eb062aab227d1f1bb02d955307c\x00expired" =>
    "e371ca390c96174fca960b156a820a6ec42546eb06db58ba8cf74e484ee0463d"
  | "310d74a3d1df6ce56bca0a344fcec6b9b0348eb062aab227d1f1bb02d955307c\x00issuance-event" =>
    "6c88c6f6895273c5724e4650b8752c6b42c15d17f50f9b6ecbb8e9427ed5c4e6"
  | _ => "0000000000000000000000000000000000000000000000000000000000000000"

def sampleHost : PostgresHost where
  sha256 := sampleDigest
  sha256_length text := by
    unfold sampleDigest
    split <;> rfl
  localeLess := stringLess
  dates := utcDates
  timestamptz := parseUtc

private theorem sample_id : signalIdOf sampleHost.toHost "approval-1" =
    "310d74a3d1df6ce56bca0a344fcec6b9b0348eb062aab227d1f1bb02d955307c" := by decide

theorem sample_collisionless : Collisionless sampleHost.toHost {"approval-1"} := by
  intro first one second two same
  obtain ⟨_, rfl, one⟩ := one
  obtain ⟨other, rfl, two⟩ := two
  rw [sample_id] at one two
  rcases one with rfl | ⟨kind, rfl⟩
  · rcases two with rfl | ⟨kind, rfl⟩
    · rfl
    · cases kind <;> exact absurd same (by decide)
  · rcases two with rfl | ⟨other, rfl⟩
    · cases kind <;> exact absurd same (by decide)
    · cases kind <;> cases other <;> first | rfl | exact absurd same (by decide)

/-- A review that can be approved or rejected within an hour. -/
def reviewSignal : SignalDefinition where
  id := "docs.review.v1"
  name := "docs.review"
  version := "v1"
  actions := [("approve", .ok), ("reject", .ok)]

def reviewRequest : IssueRequest where
  occurrenceKey := "approval-1"
  definition := reviewSignal
  input := ⟨"{}"⟩
  issuedAt := "2026-07-29T00:00:00.000Z"
  expiresAt := "2026-07-29T01:00:00.000Z"
  target := ⟨"{}"⟩
  access := .grant ⟨"{}"⟩
  issueReceipt := ⟨"receipt-issue"⟩

def approval (idempotencyKey decidedAt : String) : ResolutionRequest where
  id := signalIdOf sampleHost.toHost "approval-1"
  action := "approve"
  input := ⟨"{}"⟩
  actor := { id := "ada" }
  receipt := some ⟨"receipt-approve"⟩
  decidedAt := decidedAt
  idempotencyKey := idempotencyKey

def reviewOperations : List Operation :=
  [.issue reviewRequest fun _ _ => .ok none,
   .resolve (approval "first" "2026-07-29T00:30:00.000Z") none fun _ _ => .ok (),
   .resolve (approval "second" "2026-07-29T00:40:00.000Z") none fun _ _ => .ok ()]

def reviewRun : List MemoryEvent :=
  reviewOperations.map .submit ++ List.replicate 6 .turn

def reviewTransactions : List (SignalEvent sampleHost) :=
  reviewOperations.zipIdx.flatMap fun (operation, client) =>
    .begin client (.mutate operation) :: List.replicate 7 (.step client (some []))

private theorem reviewOperations_issues (member : op ∈ reviewOperations) : op.issues ⊆ {"approval-1"} := by
  simp only [reviewOperations, List.mem_cons, List.not_mem_nil, or_false] at member
  rcases member with rfl | rfl | rfl
  · exact subset_rfl
  · exact Set.empty_subset _
  · exact Set.empty_subset _

theorem reviewRun_collisionless : Collisionless sampleHost.toHost (submittedKeys reviewRun) := by
  refine sample_collisionless.mono ?_
  rintro _ ⟨_, member, issued⟩
  refine reviewOperations_issues ?_ issued
  simpa [reviewRun] using member

theorem reviewTransactions_collisionless : Collisionless sampleHost.toHost (begunKeys reviewTransactions) := by
  refine sample_collisionless.mono ?_
  rintro _ ⟨client, op, member, issued⟩
  refine reviewOperations_issues ?_ issued
  obtain ⟨⟨found, index⟩, listed, inside⟩ := List.mem_flatMap.mp member
  obtain ⟨_, rfl⟩ : client = index ∧ op = found := by simpa using inside
  exact List.fst_mem_of_mem_zipIdx listed

end Applik8s.Signals
