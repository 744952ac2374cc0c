import Applik8s.Lib.Crowd
import Applik8s.Outbox.Database

/-! Relays, cleanups, admissions and command workers at once, each stopped anywhere. What is owed to the
event log stays in the outbox until it was sent; an admission stays, and the reference that keeps its
catalog, until its command is executed, as long as no cleanup comes later than the audit window to a
command that is still queued. -/
namespace Applik8s.Outbox
open Lib

section
/-- The database and the event log, and what has been: the scopes that were executed, the rows that were
put into the outboxes, and the scopes that were admitted, each with its reference. -/
structure World where
  database : Database
  published : List (Channel × Json)
  drawn : Nat
  executed : List String
  owed : Channel → List OutboxRow
  admitted : List (String × Reference)

def World.empty : World := ⟨.empty, [], 0, [], fun _ => [], []⟩

/-- How a call is answered: the time of the database, and what becomes of a message to the event log. -/
structure Choice where
  now : Int
  reaches : Bool
  acknowledged : Bool
  duplicate : Bool

variable (choice : Choice) (world : World)

def World.markPublished (id : String) (channel : Channel) : World :=
  let rows := (world.database.outbox channel).map fun row =>
    if row.id = id ∧ row.publishedAt = none then { row with publishedAt := some choice.now } else row
  { world with database.outbox := Function.update world.database.outbox channel rows }

def World.persistAdmission (admission : Admission) : Except String Unit × World :=
  let conflict := s!"Application command admission {admission.scope} conflicts with an existing durable " ++
    "authorization receipt."
  match world.database.persistAdmission choice.now admission conflict with
  | .error failure => (.error failure, world)
  | .ok database => (.ok (), { world with
      database, admitted := world.admitted ++ (some admission.pair).toList })

def World.execute (execution : Execution) : Except String Unit × World :=
  match world.database.execute choice.now world.drawn execution with
  | .error failure => (.error failure, world)
  | .ok (database, ran) =>
    let admitted := world.admitted ++ (execution.admission.map Admission.pair).toList
    (.ok (), if ran then { world with
        database, admitted
        drawn := world.drawn + 1
        executed := world.executed ++ [execution.scope]
        owed := fun channel => world.owed channel ++ execution.rows choice.now channel }
      else { world with database, admitted })

/-- Whoever PostgreSQL makes wait for a cleanup goes ahead here. -/
def World.answer : (request : Request) → Choice → World → request.Reply × World
  | .selectPending channel limit, _, world =>
    ((inOrder OutboxRow.createdAt OutboxRow.id
      ((world.database.outbox channel).filter (·.publishedAt = none))).take limit, world)
  | .publish channel envelope, choice, world =>
    (if choice.reaches && choice.acknowledged then .ok choice.duplicate else .error "no acknowledgement",
      if choice.reaches then { world with published := world.published ++ [(channel, envelope)] } else world)
  | .acknowledged _ _, _, world => ((), world)
  | .markPublished channel row, choice, world => ((), world.markPublished choice row.id channel)
  | .deleteOutbox channel bindingIds batchSize own, _, world =>
    ((world.database.without own).outboxCandidates bindingIds own.cutoff batchSize channel, world)
  | .deleteInbox bindingIds auditCutoff batchSize own, _, world =>
    ((world.database.without own).inboxCandidates bindingIds own.cutoff batchSize auditCutoff, world)
  | .deleteAdmissions bindingIds auditCutoff batchSize own, _, world =>
    ((world.database.without own).admissionCandidates bindingIds batchSize auditCutoff, world)
  | .deleteReference _ _, _, world => ((), world)
  | .commit own, _, world => ((), { world with database := world.database.without own })
  | .putReference reference, _, world => ((), { world with
      database.references := world.database.references ++ [reference] })
  | .persistAdmission admission, choice, world => world.persistAdmission choice admission
  | .execute execution, choice, world => world.execute choice execution

def server : Server Runtime World Choice := ⟨World.answer⟩

/-- What a process is started for. A cleanup reads its clock once. -/
inductive Operation where
  | relay (channel : Channel) (limit : Option Nat)
  | cleanup (options : CleanupOptions) (clock : Int)
  | submit (admission : Admission)
  | execute (execution : Execution)

variable (parse : Parse)

/-- The gateway reserves the catalog of a command for it and admits it, a worker executes it. -/
def Operation.body : Operation → OutboxProgram Unit
  | .relay channel limit => do
    let _ ← relayPostgresOutbox parse channel limit
  | .cleanup options clock => do
    let _ ← cleanupPostgresCommandData options clock
  | .submit admission => do
    ask (.putReference admission.reference)
    let admitted ← ask (.persistAdmission admission)
    Program.check admitted
  | .execute execution => do
    let executed ← ask (.execute execution)
    Program.check executed

abbrev System := Crowd Runtime World String Unit Operation
abbrev Event := CrowdEvent Operation Choice

def next (parse : Parse) : System → Event → System := Crowd.advance server (Operation.body parse)

end

section
variable (parse : Parse) (world : World)

def World.Sent (channel : Channel) (row : OutboxRow) : Prop :=
  ∃ value id, eventOutboxEnvelope parse row = .ok (value, id) ∧ (channel, value) ∈ world.published

def World.Stored (channel : Channel) (row : OutboxRow) : Prop :=
  ∃ stored ∈ world.database.outbox channel,
    stored.id = row.id ∧ stored.scope = row.scope ∧ stored.envelope = row.envelope

/-- Whatever is owed to the event log is in the outbox or was sent, and what was admitted and never
executed has its admission and its reference. -/
structure World.Kept : Prop where
  owed : ∀ channel, ∀ row ∈ world.owed channel, world.Stored channel row ∨ world.Sent parse channel row
  stands : ∀ scope reference, (scope, reference) ∈ world.admitted → scope ∉ world.executed →
    (scope, reference) ∈ world.database.held ∧ reference ∈ world.database.references

def Cleans (system : System) (options : CleanupOptions) (clock : Int) : Event → Prop
  | .step caller _ => ∃ program, system.callers caller = some ⟨.cleanup options clock, program⟩
  | _ => False

/-- Only a cleanup removes rows: of an outbox, those that were sent and marked before the cutoff; of the
inbox, those with a result, all of whose outbox rows were. -/
structure Lawful (system : System) (event : Event) : Prop where
  outbox : ∀ channel, ∀ row ∈ system.world.database.outbox channel,
    (∃ stored ∈ (next parse system event).world.database.outbox channel, stored.id = row.id) ∨
      system.world.Sent parse channel row ∧ ∃ options clock, Cleans system options clock event ∧
          row.publishedBefore (options.publishedCutoff clock)
  inbox : ∀ inbox ∈ system.world.database.inbox, inbox ∈ (next parse system event).world.database.inbox ∨
      inbox.scope ∈ system.world.database.results ∧
        (∀ channel, ∀ row ∈ system.world.owed channel, row.scope = inbox.scope → system.world.Sent parse channel row) ∧
        ∃ options clock, Cleans system options clock event ∧
          ∀ channel, ∀ row ∈ system.world.database.outbox channel, row.scope = inbox.scope →
            row.publishedBefore (options.publishedCutoff clock)

def World.Unshared (pair : String × Reference) : Prop :=
  ∀ admitted ∈ world.admitted, admitted.2 = pair.2 → admitted.1 = pair.1

/-- A relay marks the row that it has sent, no two commands share a reference, and a cleanup does not
come later than its audit window to a command that is still to be executed. -/
def World.Careful : Request → Prop
  | .markPublished channel row => ∀ stored ∈ world.database.outbox channel,
      stored.id = row.id → stored.publishedAt = none → stored.envelope = row.envelope
  | .persistAdmission admission => world.Unshared admission.pair
  | .execute execution => ∀ admission ∈ execution.admission, world.Unshared admission.pair
  | .deleteAdmissions bindingIds auditCutoff _ _ => ∀ row ∈ world.database.admissions,
      row.bindingId ∈ bindingIds → row.admittedAt < auditCutoff → row.scope ∈ world.executed
  | _ => True

instance World.Careful.decidable (world : World) : (request : Request) → Decidable (world.Careful request)
  | .markPublished channel row => inferInstanceAs (Decidable (∀ stored ∈ world.database.outbox channel,
      stored.id = row.id → stored.publishedAt = none → stored.envelope = row.envelope))
  | .persistAdmission admission => inferInstanceAs (Decidable (∀ admitted ∈ world.admitted,
      admitted.2 = admission.pair.2 → admitted.1 = admission.pair.1))
  | .execute execution => inferInstanceAs (Decidable (∀ admission ∈ execution.admission,
      ∀ admitted ∈ world.admitted, admitted.2 = admission.pair.2 → admitted.1 = admission.pair.1))
  | .deleteAdmissions bindingIds auditCutoff _ _ =>
    inferInstanceAs (Decidable (∀ row ∈ world.database.admissions,
      row.bindingId ∈ bindingIds → row.admittedAt < auditCutoff → row.scope ∈ world.executed))
  | .selectPending _ _ | .publish _ _ | .acknowledged _ _ | .deleteOutbox _ _ _ _ | .deleteInbox _ _ _ _
  | .deleteReference _ _ | .commit _ | .putReference _ => inferInstanceAs (Decidable True)

def CarefulStep (system : System) : Event → Prop
  | .step caller _ => system.Asks caller system.world.Careful
  | _ => True

instance CarefulStep.decidable (system : System) : (event : Event) → Decidable (CarefulStep system event)
  | .step caller _ => system.decideAsks caller (World.Careful.decidable system.world)
  | .start _ _ | .stop _ => isTrue trivial

end
end Applik8s.Outbox
