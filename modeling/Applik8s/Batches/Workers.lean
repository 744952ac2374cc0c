import Applik8s.Batches.Freezing

/-! Batch processors: `runApplicationStreamBatchProcessor`, any number of them at once over one store. The batches of a
group are worked through by up to `concurrency` workers; each run, and each of its workers, is between two of its awaits,
and any of them may go on next. -/
namespace Applik8s.Batches
open Lib Streams Processors

/-- What `processFrozenBatch` awaits, and what stores that a batch is complete. -/
inductive Work where
  | decoding (attempt : Nat)
  | handling (attempt : Nat)
  | sleeping (attempt : Nat)
  | burying (attempts : Nat) (error : String)
  | marking (result : ProcessResult)
deriving DecidableEq

/-- `terminalBatchFailure`: the result at once, or dead letters to store. -/
def terminalBatchFailure (options : Options) (attempts : Nat) (error : String) : Work ⊕ String :=
  match options.failure with
  | .pause => .inr error
  | .deadLetter => .inl (.burying attempts error)

variable (consumer : Consumer)

/-- The text of an array of envelopes: brackets, and commas in between. -/
def inputBytes (events : List Event) : Nat := batchBytes consumer events + events.length + 1

variable (pool : Pool) (options : Options) (run : Run) (stored : Option Group) (index : Nat)
  (system : System) (group : Group) (index checkpoint : Nat) (exhausted : Bool) (batch : Batch)

def beginBatch : Work ⊕ String :=
  if options.maxInputBytes < inputBytes consumer batch.events then
    terminalBatchFailure options 0 ("Batch is " ++ toString (inputBytes consumer batch.events) ++
      " bytes and exceeds the " ++ toString options.maxInputBytes ++ "-byte processor limit.")
  else if 1 ≤ options.maxAttempts then .inl (.decoding 1)
  else terminalBatchFailure options options.maxAttempts "unknown stream batch processor failure"

def afterAttempt (attempt : Nat) (aborted : Bool) (message : String) : Work ⊕ String :=
  if attempt < options.maxAttempts then .inl (.sleeping attempt)
  else terminalBatchFailure options options.maxAttempts
    (if aborted then "Timed out after " ++ toString options.timeoutMs ++ "ms" else message)

/-- A worker of `concurrentMap`: about to take the next batch, at a batch, or done. -/
inductive Worker where
  | idle
  | busy (index : Nat) (batch : Batch) (work : Work)
  | gone
deriving DecidableEq

abbrev Results := Nat → Option ProcessResult

structure Pool where
  batches : List Batch
  cursor : Nat := 0
  workers : List Worker
  results : Results := fun _ => none

def Group.pending : List Batch := group.batches.filter (·.id ∉ group.completedBatchIds)

def Pool.of (concurrency : Nat) (batches : List Batch) : Pool where
  batches := batches
  workers := List.replicate (min concurrency batches.length) .idle

def Pool.isDone : Bool := pool.workers.all fun
  | .gone => true
  | _ => false

inductive Move where
  | take
  /-- The payloads are decoded, and the batch is passed to the handler; or an error, and whether the signal was aborted. -/
  | decoded (outcome : Except (Bool × String) Unit)
  | handled (outcome : Except (Bool × String) Unit)
  | woken
  /-- For each event, whether its dead letter failed, and whether it was stored. -/
  | buried (letters : List (Option String × Bool))
  | marked (failure : Option String) (effective : Bool)

/-- What a worker's step leaves, and what of it others see. -/
structure Effect where
  worker : Worker
  cursor : Nat
  results : Results
  group : Option Group
  passed : List Batch := []
  finished : List Batch := []
  buried : List DeadLetter := []
  thrown : Option String := none

/-- What a worker does with a batch: it works on, or has failed. -/
def Pool.goes : Work ⊕ String → Effect
  | .inl work => { worker := .busy index batch work, cursor := pool.cursor, results := pool.results, group := stored }
  | .inr error =>
    { worker := .idle, cursor := pool.cursor, group := stored
      results := Function.update pool.results index (some (.failed batch.id error)) }

/-- `markBatchComplete`: whether there is such a batch, and the group behind it. -/
def markBatchComplete (groupId batchId : String) : Bool × Option Group :=
  match stored with
  | none => (false, none)
  | some group =>
    if group.id = groupId ∧ group.batches.any (·.id = batchId) then
      (true, some (if batchId ∈ group.completedBatchIds then group
        else { group with completedBatchIds := group.completedBatchIds ++ [batchId] }))
    else (false, some group)

/-- The letters that were stored for the events of a batch, and the first failure. -/
def letters (attempts : Nat) (error : String) (outcomes : List (Option String × Bool)) :
    List DeadLetter × Option String :=
  ((batch.events.zip outcomes).filterMap fun (event, failure, effective) =>
      if failure.isNone ∨ effective then
        some { event, attempts, error := "Batch " ++ batch.id ++ ": " ++ error }
      else none,
    outcomes.findSome? (·.1))

variable (groupId : String)

/-- A worker's step, in a run that works through a group. -/
def Pool.step (groupId : String) (stored : Option Group) (pool : Pool) :
    Worker → Move → Option Effect
  | .idle, .take =>
    match pool.batches[pool.cursor]? with
    | none => some { worker := .gone, cursor := pool.cursor, results := pool.results, group := stored }
    | some batch =>
      some { pool.goes stored pool.cursor batch (beginBatch consumer options batch) with cursor := pool.cursor + 1 }
  | .busy index batch (.decoding attempt), .decoded outcome =>
    match outcome with
    | .ok _ =>
      some { worker := .busy index batch (.handling attempt), cursor := pool.cursor, results := pool.results
             group := stored, passed := [batch] }
    | .error (aborted, message) => some (pool.goes stored index batch (afterAttempt options attempt aborted message))
  | .busy index batch (.handling attempt), .handled outcome =>
    match outcome with
    | .ok _ => some { pool.goes stored index batch (.inl (.marking (.processed batch.id))) with finished := [batch] }
    | .error (aborted, message) => some (pool.goes stored index batch (afterAttempt options attempt aborted message))
  | .busy index batch (.sleeping attempt), .woken => some (pool.goes stored index batch (.inl (.decoding (attempt + 1))))
  | .busy index batch (.burying attempts error), .buried outcomes =>
    if outcomes.length = batch.events.length then
      let (buried, failure) := letters batch attempts error outcomes
      match failure with
      | none =>
        some { pool.goes stored index batch (.inl (.marking (.deadLettered batch.id))) with
          buried, finished := [batch] }
      | some message =>
        some { worker := .gone, cursor := pool.cursor, results := pool.results, group := stored, buried
               thrown := some message }
    else none
  | .busy index batch (.marking result), .marked failure effective =>
    let (found, marked) := markBatchComplete stored groupId batch.id
    match failure with
    | some message =>
      some { worker := .gone, cursor := pool.cursor, results := pool.results
             group := if effective then marked else stored, thrown := some message }
    | none =>
      if found then
        some { worker := .idle, cursor := pool.cursor, group := marked
               results := Function.update pool.results index (some result) }
      else
        some { worker := .gone, cursor := pool.cursor, results := pool.results, group := marked
               thrown := some ("Frozen stream batch " ++ batch.id ++ " is missing or no longer owned by " ++
                 consumer.processor ++ ".") }
  | _, _ => none

structure Summary where
  processed : Nat
  deadLettered : Nat
  checkpoint : Nat
  exhausted : Bool
deriving DecidableEq

inductive Stage where
  | preparing
  | loading
  | looking (index checkpoint : Nat)
  | reading (index checkpoint : Nat)
  | freezing (index checkpoint : Nat) (group : Group) (exhausted : Bool)
  | working (index : Nat) (group : Group) (exhausted : Bool)
  | completing (index : Nat) (group : Group) (exhausted : Bool)
  | ended (outcome : Except String Summary)

structure Run where
  options : Options
  stage : Stage
  /-- The workers of its last group, and the identity of the group; those of a run that was rejected go on. -/
  pool : Option (String × Pool) := none
  processed : Nat := 0
  deadLettered : Nat := 0

def Run.isOver : Bool :=
  match run.stage with
  | .ended _ => true
  | _ => false

structure System where
  log : Log Content
  checkpoint : Nat := 0
  group : Option Group := none
  deadLetters : List DeadLetter := []
  runs : List Run := []
  /-- The groups that were stored, as they were frozen. -/
  frozen : List Group := []
  /-- The batches that were passed to the handler, each time. -/
  passed : List Batch := []
  /-- The batches that were handled or dead-lettered. -/
  finished : List Batch := []

inductive Label where
  | append (event : Event)
  | retain (through : Nat)
  | start (options : Options)
  /-- A run goes on, with what it awaited: a failure, before or behind its effect, or none. -/
  | main (run : Nat) (failure : Option String) (effective : Bool)
  | work (run worker : Nat) (move : Move)
  | crash (run : Nat)

def Run.starts : Run where
  options := options
  stage := match options.refused with
    | some message => .ended (.error message)
    | none => .preparing

def Run.fails (message : String) : Run := { run with stage := .ended (.error message) }

def Run.summary (checkpoint : Nat) (exhausted : Bool) : Summary :=
  ⟨run.processed, run.deadLettered, checkpoint, exhausted⟩

def Run.works (group : Group) (exhausted : Bool) : Run :=
  { run with
    stage := .working index group exhausted
    pool := some (group.id, Pool.of run.options.concurrency.toNat group.pending) }

def Run.reads (page : Page Content) : Run :=
  if page.retentionFloor > checkpoint then
    run.fails ("Stream processor " ++ consumer.processor ++ " checkpoint " ++ toString checkpoint ++
      " is behind retained stream " ++ consumer.streamName ++ " floor " ++ toString page.retentionFloor ++
      ". Rebuild from authority or increase retention.")
  else
    match freezeStreamBatchGroup consumer run.options page.items with
    | none => { run with stage := .ended (.ok (run.summary checkpoint true)) }
    | some group =>
      { run with
        stage := .freezing index checkpoint group (page.exhausted && group.lastSequence == page.nextSequence) }

/-- `results.find(({ result }) => result.state === 'failed')`. -/
def Pool.firstFailed : Option (String × String) :=
  pool.batches.zipIdx.findSome? fun (batch, index) =>
    match pool.results index with
    | some (.failed _ error) => some (batch.id, error)
    | _ => none

def Pool.countOf (counts : ProcessResult → Bool) : Nat :=
  (pool.batches.zipIdx.map fun (batch, index) =>
    if (pool.results index).any counts then batch.events.length else 0).sum

/-- All batches are through: the run is paused by the first failure, or stores that the group is complete. -/
def Run.join (group : Group) (exhausted : Bool) (pool : Pool) : Run :=
  match pool.firstFailed with
  | some (batchId, detail) =>
    run.fails ("Stream processor " ++ consumer.processor ++ " paused at event " ++ batchId ++ ": " ++ detail)
  | none =>
    { run with
      stage := .completing index group exhausted
      processed := run.processed + pool.countOf fun
        | .processed _ => true
        | _ => false
      deadLettered := run.deadLettered + pool.countOf fun
        | .deadLettered _ => true
        | _ => false }

def Run.turns : Run :=
  { run with
    stage :=
      if exhausted then .ended (.ok (run.summary checkpoint true))
      else if (index + 1 : Int) < run.options.batches then .looking (index + 1) checkpoint
      else .ended (.ok (run.summary checkpoint false)) }

/-- `freezeBatchGroup`: the group that is stored, or now is. -/
def System.freezeBatchGroup : Group × System :=
  match system.group with
  | some existing => (existing, system)
  | none => (group, { system with group := some group, frozen := system.frozen ++ [group] })

/-- `completeBatchGroup`. -/
def System.completeBatchGroup (sequence : Nat) : Bool × System :=
  match system.group with
  | none => (false, system)
  | some group =>
    if group.id = groupId ∧ group.batches ≠ [] ∧ group.batches.all (·.id ∈ group.completedBatchIds) then
      (true, { system with group := none, checkpoint := max system.checkpoint sequence })
    else (false, system)

variable (read : Source Content) (system : System) (run : Run)

def System.goesOn (failure : Option String) (effective : Bool) : System × Run :=
  match run.stage, failure with
  | .ended _, _ => (system, run)
  | .working index group exhausted, _ =>
    match run.pool with
    | some (_, pool) => (system, if pool.isDone then run.join consumer index group exhausted pool else run)
    | none => (system, run)
  | .freezing _ _ group _, some message =>
    (if effective then (system.freezeBatchGroup group).2 else system, run.fails message)
  | .freezing index _ group exhausted, none =>
    let (group, system) := system.freezeBatchGroup group
    (system, run.works index group exhausted)
  | .completing _ group _, some message =>
    (if effective then (system.completeBatchGroup group.id group.lastSequence).2 else system, run.fails message)
  | .completing index group exhausted, none =>
    match system.completeBatchGroup group.id group.lastSequence with
    | (true, system) => (system, run.turns index group.lastSequence exhausted)
    | (false, system) => (system, run.fails ("Frozen stream batch group " ++ group.id ++
        " cannot advance before every batch completes."))
  | _, some message => (system, run.fails message)
  | .preparing, none => (system, { run with stage := .loading })
  | .loading, none => (system, { run with stage := .looking 0 system.checkpoint })
  | .looking index checkpoint, none =>
    match system.group with
    | some group => (system, run.works index group false)
    | none => (system, { run with stage := .reading index checkpoint })
  | .reading index checkpoint, none =>
    let size := min 1000 (run.options.maxItems * run.options.concurrency).toNat
    (system, run.reads consumer index checkpoint (read system.log checkpoint size))

/-- A rejection of one worker is the run's, which then goes on no more. -/
def Run.throws : Option String → Run
  | some message => if run.isOver then run else run.fails message
  | none => run

def Run.after (groupId : String) (pool : Pool) (worker : Nat) (effect : Effect) : Run :=
  { run with
    pool := some (groupId, { pool with
      cursor := effect.cursor
      workers := pool.workers.set worker effect.worker
      results := effect.results }) }.throws effect.thrown

def System.works (index : Nat) (run : Run) (groupId : String) (pool : Pool) (worker : Nat)
    (effect : Effect) : System :=
  { system with
    group := effect.group
    passed := system.passed ++ effect.passed
    finished := system.finished ++ effect.finished
    deadLetters := effect.buried.foldl bury system.deadLetters
    runs := system.runs.set index (run.after groupId pool worker effect) }

def System.next : Label → System
  | .append event => { system with log := system.log.append event }
  | .retain through => { system with log := system.log.retain through }
  | .start options => { system with runs := system.runs ++ [Run.starts options] }
  | .main index failure effective =>
    match system.runs[index]? with
    | none => system
    | some run =>
      let (after, run) := system.goesOn consumer read run failure effective
      { after with runs := after.runs.set index run }
  | .work index worker move =>
    match system.runs[index]? with
    | none => system
    | some run =>
      match run.pool with
      | none => system
      | some (groupId, pool) =>
        match pool.workers[worker]?.bind (pool.step consumer run.options groupId system.group · move) with
        | none => system
        | some effect => system.works index run groupId pool worker effect
  | .crash index =>
    match system.runs[index]? with
    | none => system
    | some run => { system with runs := system.runs.set index { run.throws (some "crashed") with pool := none } }

end Applik8s.Batches
