import Applik8s.Signals.LifecycleProofs

/-! Decisions and deadlines. Neither store looks at `expiresAt` when a signal is resolved;
only the sweep does. A signal is therefore decided in time exactly as far as whoever
resolves it comes in time, or finds it swept. -/
namespace Applik8s.Signals
open Lib

/-- The signal could still be acted on at this time, as far as its deadline goes. -/
def actionableAt (dates : Dates) (signal : StoredInstance) (time : String) : Bool :=
  (dates.parse time).any (applicationSignalIsActionable dates { signal with terminal := none })

/-- Every decision of a signal was taken while it could be acted on. -/
def DecidedInTime (dates : Dates) (signals : String → Option StoredInstance) : Prop :=
  ∀ id signal action input actor receipt decidedAt, signals id = some signal →
    signal.terminal = some (.resolved action input actor receipt decidedAt) →
    actionableAt dates signal decidedAt = true

/-- A resolution finds its signal decided, or still to be acted on at the time of the
decision it brings. -/
def comesInTime (dates : Dates) (signals : String → Option StoredInstance) (request : ResolutionRequest) :
    Bool :=
  (signals request.id).any fun signal => signal.terminal.isSome || actionableAt dates signal request.decidedAt

/-- A resolution is taken up in time, or the run never issues the signal it is for. -/
def TakenInTime (host : Host) (known : Set String) (signals : String → Option StoredInstance) :
    Operation → Prop
  | .resolve request _ _ => comesInTime host.dates signals request = true ∨
      ∀ key ∈ known, signalIdOf host key ≠ request.id
  | _ => True

section
variable {host : Host} {known : Set String}

/-- What is kept while resolutions are taken up in time. -/
structure Punctual (host : Host) (known : Set String) (signals : String → Option StoredInstance) : Prop where
  inTime : DecidedInTime host.dates signals
  expected : ∀ id signal, signals id = some signal → signal.occurrenceKey ∈ known

private theorem punctual_withSignal {ledger : Ledger} (punctual : Punctual host known ledger.signals)
    {next : StoredInstance} (fact : OutboxFact) (expected : next.occurrenceKey ∈ known)
    (inTime : ∀ action input actor receipt decidedAt,
      next.terminal = some (.resolved action input actor receipt decidedAt) →
      actionableAt host.dates next decidedAt = true) : Punctual host known (ledger.withSignal next fact).signals where
  inTime id signal action input actor receipt decidedAt held decided := by
    rw [Ledger.withSignal_signals] at held
    split at held
    · cases held
      exact inTime action input actor receipt decidedAt decided
    · exact punctual.inTime id signal action input actor receipt decidedAt held decided
  expected id signal held := by
    rw [Ledger.withSignal_signals] at held
    split at held
    · cases held
      exact expected
    · exact punctual.expected id signal held

private theorem actionable_of_taken {origin : Ledger} (since : origin.Follows before) (orderly : before.Orderly host)
    (punctual : Punctual host known before.signals)
    (taken : TakenInTime host known origin.signals (.resolve req authorize finalize))
    (held : before.signals req.id = some cur) (pending : cur.terminal = none)
    : actionableAt host.dates cur req.decidedAt = true := by
  rcases taken with inTime | never
  · obtain ⟨signal, stored, inTime⟩ := (Option.any_eq_true _ _).mp inTime
    rw [Bool.or_eq_true] at inTime
    obtain ⟨terminal, now, settled⟩ := since.signals req.id signal stored
    cases held.symm.trans now
    have gone : terminal = none := pending
    have undecided : ¬ signal.terminal.isSome := by
      intro decided
      rw [← settled decided, gone] at decided
      cases decided
    exact inTime.resolve_left undecided
  · exact absurd (orderly.named _ _ held).2.symm (never _ (punctual.expected _ _ held))

def punctuality (host : Host) (known : Set String) : Watch host known where
  takes operation signals := TakenInTime host known signals operation
  holds := Punctual host known
  start := ⟨by simp [DecidedInTime], by simp⟩
  keeps expected taken since orderly punctual enters := by
    cases enters with
    | issue _ _ _ _ fresh =>
      subst fresh
      exact punctual_withSignal punctual _ (expected rfl) nofun
    | @resolve _ request _ _ current _ held _ pending =>
      have expected := punctual.expected _ _ held
      refine punctual_withSignal punctual (resolvedFact host current request.action request.decidedAt) expected ?_
      intro action input actor given decidedAt decided
      cases decided
      have actionable := actionable_of_taken since orderly punctual taken held pending
      exact actionable
    | expire held own pending final | sweep held own pending final =>
      have expected := punctual.expected _ _ held
      exact punctual_withSignal punctual _ expected nofun

end

def TurnsInTime (host : Host) (known : Set String) (desk : MemoryDesk) : MemoryEvent → Prop
  | .turn => ∀ operation ∈ desk.waiting.head?, desk.running = none →
    TakenInTime host known desk.world.ledger.signals operation
  | _ => True

/-- Each transaction of the PostgreSQL store begins in time. -/
def BeginsInTime (host : PostgresHost) (known : Set String) (database : SignalDatabase host) :
    SignalEvent host → Prop
  | .begin _ (.mutate operation) => TakenInTime host.toHost known (signalsOf host database.rows) operation
  | _ => True

/-- In every run in which resolutions are taken up in time, signals are decided in time. -/
theorem signals_are_decided_in_time (host : PostgresHost) :
    (∀ events : List MemoryEvent, Collisionless host.toHost (submittedKeys events) →
      EachStep (MemoryDesk.advance host.toHost) (TurnsInTime host.toHost (submittedKeys events)) .fresh events →
      DecidedInTime host.dates (runFrom (MemoryDesk.advance host.toHost) .fresh events).world.ledger.signals) ∧
    ∀ events : List (SignalEvent host), Collisionless host.toHost (begunKeys events) →
      EachStep (SignalDatabase.advance host) (BeginsInTime host (begunKeys events)) (.fresh host) events →
      DecidedInTime host.dates
        (signalsOf host (runFrom (SignalDatabase.advance host) (.fresh host) events).rows) := by
  refine ⟨fun events distinct inTime => ?_, fun events distinct inTime => ?_⟩
  · let discipline := memoryDiscipline host.toHost (submittedKeys events) distinct
      (punctuality host.toHost (submittedKeys events))
    have observed : discipline.Observed MemoryDesk.fresh events := by
      refine inTime.imp fun event member desk taken => ?_
      cases event with
      | submit operation => exact fun key issued => ⟨operation, member, issued⟩
      | turn => exact taken
      | disturb ids => trivial
    have start : discipline.Kept MemoryDesk.fresh :=
      discipline.kept_idle ⟨MemoryStore.consistent_empty, (punctuality host.toHost _).start⟩
    exact (discipline.run_kept start observed).invariant.2.inTime
  · let regime := signalRegime host (begunKeys events) distinct (punctuality host.toHost (begunKeys events))
    have observed : regime.Observed (SignalDatabase.fresh host) events := by
      refine inTime.imp fun event member database taken => ?_
      cases event with
      | begin client step =>
        rintro _ operation rfl
        exact ⟨fun key issued => ⟨client, operation, member, issued⟩, taken⟩
      | step => trivial
      | lose client => trivial
    have start : regime.Kept (SignalDatabase.fresh host) :=
      regime.kept_idle ⟨⟨.empty, stores_empty⟩, (punctuality host.toHost _).start⟩
    exact (regime.run_kept start observed).1.invariant.2.inTime

/-- Whether a resolution the run may issue a signal for is taken up in time. -/
def takenInTime (dates : Dates) (signals : String → Option StoredInstance) : Operation → Bool
  | .resolve request _ _ => comesInTime dates signals request
  | _ => true

private theorem taken_of_takenInTime (inTime : takenInTime host.dates signals op = true)
    : TakenInTime host known signals op := by
  cases op with
  | resolve => exact .inl inTime
  | issue | expire | expireDue => trivial

def turnsInTime (dates : Dates) (desk : MemoryDesk) : MemoryEvent → Bool
  | .turn => desk.running.isSome || desk.waiting.head?.all (takenInTime dates desk.world.ledger.signals)
  | _ => true

def beginsInTime (host : PostgresHost) (database : SignalDatabase host) : SignalEvent host → Bool
  | .begin _ (.mutate operation) => takenInTime host.dates (signalsOf host database.rows) operation
  | _ => true

theorem review_is_decided_in_time : DecidedInTime sampleHost.dates
      (runFrom (MemoryDesk.advance sampleHost.toHost) .fresh reviewRun).world.ledger.signals ∧
    DecidedInTime sampleHost.dates
      (signalsOf sampleHost (runFrom (SignalDatabase.advance sampleHost) (.fresh sampleHost)
        reviewTransactions).rows) := by
  have turns : EachStep (MemoryDesk.advance sampleHost.toHost)
      (fun desk event => turnsInTime sampleHost.dates desk event = true) .fresh reviewRun := by
    decide +kernel
  have begins : EachStep (SignalDatabase.advance sampleHost)
      (fun database event => beginsInTime sampleHost database event = true) (.fresh sampleHost)
        reviewTransactions := by
    decide +kernel
  constructor
  · refine (signals_are_decided_in_time sampleHost).1 _ reviewRun_collisionless (turns.imp ?_)
    intro event _ desk inTime
    cases event with
    | turn =>
      intro operation next idle
      simp only [turnsInTime, idle, Option.isSome_none, Bool.false_or] at inTime
      exact taken_of_takenInTime ((Option.all_eq_true _ _).mp inTime operation next)
    | submit | disturb => trivial
  · refine (signals_are_decided_in_time sampleHost).2 _ reviewTransactions_collisionless (begins.imp ?_)
    intro event _ database inTime
    cases event with
    | begin client step =>
      cases step with
      | mutate => exact taken_of_takenInTime inTime
      | acknowledge => trivial
    | step | lose => trivial

def Operation.clock : Operation → String
  | .issue request _ => request.issuedAt
  | .resolve request _ _ => request.decidedAt
  | .expire _ expiredAt _ => expiredAt
  | .expireDue now _ _ => now

/-- An approval that comes an hour after the deadline, before any sweep. -/
def lateOperations : List Operation :=
  [.issue reviewRequest fun _ _ => .ok none,
   .resolve (approval "late" "2026-07-29T02:00:00.000Z") none fun _ _ => .ok ()]

def lateRun : List MemoryEvent := lateOperations.map .submit ++ List.replicate 4 .turn

def lateTransactions : List (SignalEvent sampleHost) :=
  lateOperations.zipIdx.flatMap fun (operation, client) =>
    .begin client (.mutate operation) :: List.replicate 7 (.step client (some []))

theorem a_late_approval_is_decided : (lateOperations.map fun operation => parseUtc operation.clock) =
      [some 1785283200000, some 1785290400000] ∧
    ¬ DecidedInTime sampleHost.dates
      (runFrom (MemoryDesk.advance sampleHost.toHost) .fresh lateRun).world.ledger.signals ∧
    ¬ DecidedInTime sampleHost.dates (signalsOf sampleHost
      (runFrom (SignalDatabase.advance sampleHost) (.fresh sampleHost) lateTransactions).rows) := by
  have late : ∀ signals : String → Option StoredInstance,
      ((signals (signalIdOf sampleHost.toHost "approval-1")).map fun signal =>
        (signal.terminal, actionableAt sampleHost.dates signal "2026-07-29T02:00:00.000Z")) =
        some (some (.resolved "approve" ⟨"{}"⟩ { id := "ada" } ⟨"receipt-approve"⟩
          "2026-07-29T02:00:00.000Z"), false) → ¬ DecidedInTime sampleHost.dates signals := by
    intro signals decided inTime
    obtain ⟨_, held, decided⟩ := Option.map_eq_some_iff.mp decided
    have late := inTime _ _ _ _ _ _ _ held (congrArg Prod.fst decided)
    exact absurd (late.symm.trans (congrArg Prod.snd decided)) (by decide)
  exact ⟨by decide, late _ (by decide +kernel), late _ (by decide +kernel)⟩

end Applik8s.Signals
