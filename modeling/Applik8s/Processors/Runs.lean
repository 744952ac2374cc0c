import Applik8s.Lib.Groups
import Applik8s.Lib.JsonText
import Applik8s.Lib.Run
import Applik8s.Lib.Utf8
import Applik8s.Streams.Gateway

/-! Stream processors: `runApplicationStreamProcessor` and what it calls. The lanes of a page, one for each partition,
are worked through by up to `concurrency` workers; each worker is between two of its awaits, and any of them may go
on next. -/
namespace Applik8s.Processors
open Lib Streams

structure Content where
  id : String
  partitionKey : String
  recordedAt : String
  payload : Json
deriving DecidableEq

abbrev Event := Envelope Content

def partitionOf (event : Event) : String := event.payload.partitionKey
def idOf (event : Event) : String := event.payload.id

inductive FailurePolicy where
  | pause | deadLetter
deriving DecidableEq

structure Options where
  processor : String
  streamName : String
  concurrency : Int
  maxAttempts : Nat
  failure : FailurePolicy
  timeoutMs : Nat
  maxInputBytes : Nat
  batchSize : Option Int := none
  maxBatches : Option Int := none

variable (options : Options) (lane : Nat) (results : Results)

def Options.pageSize : Int :=
  options.batchSize.getD (min 1000 (max 1 (options.concurrency * 8)))

def Options.batches : Int := options.maxBatches.getD 100

def Options.refused : Option String :=
  if options.concurrency < 1 ∨ 64 < options.concurrency then
    some "Stream processor concurrency must be between 1 and 64."
  else if options.pageSize < 1 ∨ 1000 < options.pageSize then
    some "Stream processor batchSize must be between 1 and 1000."
  else if options.batches < 1 ∨ 10000 < options.batches then
    some "Stream processor maxBatches must be between 1 and 10000."
  else none

inductive ProcessResult where
  | processed (eventId : String)
  | deadLettered (eventId : String)
  | failed (eventId error : String)
deriving DecidableEq

def ProcessResult.isFailed : ProcessResult → Bool
  | .failed .. => true
  | _ => false

/-- What `processEnvelope` awaits: the decoder and the handler of an attempt, the sleep behind a failed attempt, or
the store that takes the dead letter. -/
inductive Work where
  | handling (attempt : Nat)
  | sleeping (attempt : Nat)
  | burying (attempts : Nat) (error : String)

/-- `terminalFailure`: the result at once, or a dead letter to store. -/
def terminalFailure (attempts : Nat) (error : String) : Work ⊕ String :=
  match options.failure with
  | .pause => .inr error
  | .deadLetter => .inl (.burying attempts error)

def payloadBytes (event : Event) : Nat := byteLength (JsonText.stringify event.payload.payload)

def beginEnvelope (event : Event) : Work ⊕ String :=
  if options.maxInputBytes < payloadBytes event then
    terminalFailure options 0 ("Payload is " ++ toString (payloadBytes event) ++ " bytes and exceeds the " ++
      toString options.maxInputBytes ++ "-byte processor limit.")
  else if 1 ≤ options.maxAttempts then .inl (.handling 1)
  else terminalFailure options options.maxAttempts "unknown stream processor failure"

def afterAttempt (attempt : Nat) (aborted : Bool) (message : String) : Work ⊕ String :=
  if attempt < options.maxAttempts then .inl (.sleeping attempt)
  else terminalFailure options options.maxAttempts
    (if aborted then "Timed out after " ++ toString options.timeoutMs ++ "ms" else message)

/-! ### Lanes and workers -/

abbrev Item := Event × Nat

/-- A worker of `concurrentMap`: about to take the next lane, within a lane, or done. -/
inductive Worker where
  | idle
  | busy (lane : Nat) (item : Item) (rest : List Item) (work : Work)
  | gone

def Worker.holds : Worker → Option Nat
  | .busy lane _ _ _ => some lane
  | _ => none

def Worker.event : Worker → Option Event
  | .busy _ item _ _ => some item.1
  | _ => none

/-- What is seen of a run: each attempt when it begins, each result when there is one. -/
inductive Notice where
  | began (event : Event) (attempt : Nat)
  | settled (event : Event) (failed : Bool)

abbrev Results := Nat → Option ProcessResult

structure DeadLetter where
  event : Event
  attempts : Nat
  error : String

/-- `processPartitionedEnvelopes` under way. -/
structure Pool where
  lanes : List (List Item)
  cursor : Nat := 0
  workers : List Worker
  results : Results := fun _ => none

def lanesOf (items : List Event) : List (List Item) :=
  (groups (fun item : Item => partitionOf item.1) items.zipIdx).map Prod.snd

def Pool.of (concurrency : Nat) (items : List Event) : Pool where
  lanes := lanesOf items
  workers := List.replicate (min concurrency (lanesOf items).length) .idle

def Results.assign (items : List Item) (result : ProcessResult) : Results :=
  fun index => if items.any (·.2 = index) then some result else results index

def noticesOf (event : Event) : Work → List Notice
  | .handling attempt => [.began event attempt]
  | _ => []

structure Progress where
  worker : Worker
  results : Results
  notices : List Notice

/-- The next item of a lane; where it fails at once, it blocks the rest. -/
def enter : List Item → Progress
  | [] => ⟨.idle, results, []⟩
  | item :: rest =>
    match beginEnvelope options item.1 with
    | .inl work => ⟨.busy lane item rest work, results, noticesOf item.1 work⟩
    | .inr error => ⟨.idle, results.assign (item :: rest) (.failed (idOf item.1) error), [.settled item.1 true]⟩

/-- The result of an item: a failure blocks the rest of its lane. -/
def settle (item : Item) (rest : List Item) (results : Results)
    (result : ProcessResult) : Progress :=
  match result with
  | .failed .. => ⟨.idle, results.assign (item :: rest) result, [.settled item.1 true]⟩
  | _ =>
    let progress := enter options lane (results.assign [item] result) rest
    { progress with notices := .settled item.1 false :: progress.notices }

inductive Move where
  | take
  /-- The attempt is over: with its error, and whether its signal was aborted. -/
  | handled (outcome : Except (Bool × String) Unit)
  | woken
  | buried (failure : Option String) (effective : Bool)

/-- What a worker's step does to its pool, the handled events and the store. -/
structure Effect where
  progress : Progress
  cursor : Nat
  handled : List Event := []
  buried : List DeadLetter := []
  thrown : Option String := none

def Pool.step (pool : Pool) : Worker → Move → Option Effect
  | .idle, .take =>
    match pool.lanes[pool.cursor]? with
    | none => some { progress := ⟨.gone, pool.results, []⟩, cursor := pool.cursor }
    | some items => some { progress := enter options pool.cursor pool.results items, cursor := pool.cursor + 1 }
  | .busy lane item rest (.handling attempt), .handled outcome =>
    match outcome with
    | .ok _ =>
      some { progress := settle options lane item rest pool.results (.processed (idOf item.1)), cursor := pool.cursor
             handled := [item.1] }
    | .error (aborted, message) =>
      match afterAttempt options attempt aborted message with
      | .inl work => some { progress := ⟨.busy lane item rest work, pool.results, []⟩, cursor := pool.cursor }
      | .inr error =>
        some { progress := settle options lane item rest pool.results (.failed (idOf item.1) error)
               cursor := pool.cursor }
  | .busy lane item rest (.sleeping attempt), .woken =>
    some { progress := ⟨.busy lane item rest (.handling (attempt + 1)), pool.results, [.began item.1 (attempt + 1)]⟩
           cursor := pool.cursor }
  | .busy lane item rest (.burying attempts error), .buried failure effective =>
    match failure with
    | none =>
      some { progress := settle options lane item rest pool.results (.deadLettered (idOf item.1)), cursor := pool.cursor
             buried := [⟨item.1, attempts, error⟩] }
    | some message =>
      some { progress := ⟨.gone, pool.results, []⟩, cursor := pool.cursor
             buried := if effective then [⟨item.1, attempts, error⟩] else [], thrown := some message }
  | _, _ => none

structure Summary where
  processed : Nat
  deadLettered : Nat
  checkpoint : Nat
  exhausted : Bool
deriving DecidableEq

inductive Stage where
  | preparing
  | loading
  | reading (batch checkpoint : Nat)
  | working (batch checkpoint : Nat) (page : Page Content)
  | advancing (batch : Nat) (page : Page Content)
  | ended (outcome : Except String Summary)

structure Run where
  stage : Stage
  /-- The workers of its last page; those of a run that was rejected go on. -/
  pool : Option Pool := none
  processed : Nat := 0
  deadLettered : Nat := 0
  trace : List Notice := []

def Run.isOver (run : Run) : Bool :=
  match run.stage with
  | .ended _ => true
  | _ => false

structure System where
  log : Log Content
  checkpoint : Nat := 0
  deadLetters : List DeadLetter := []
  /-- The events of which an attempt succeeded. -/
  handled : List Event := []
  runs : List Run := []

/-- `ON CONFLICT (processor, stream, event_id) DO UPDATE`. -/
def bury (letters : List DeadLetter) (letter : DeadLetter) : List DeadLetter :=
  let letter := { letter with error := String.ofList (letter.error.toList.take 4000) }
  if letters.any (idOf ·.event = idOf letter.event) then
    letters.map fun old =>
      if idOf old.event = idOf letter.event then
        { old with attempts := max old.attempts letter.attempts, error := letter.error }
      else old
  else letters ++ [letter]

inductive Label where
  | append (event : Event)
  | retain (through : Nat)
  | start
  /-- The latest run goes on, with what it awaited: a failure, before or behind its effect, or none. -/
  | main (failure : Option String) (effective : Bool)
  | work (run worker : Nat) (move : Move)
  | crash

def Run.starts : Run where
  stage := match options.refused with
    | some message => .ended (.error message)
    | none => .preparing

def retentionGap (checkpoint floor : Nat) : String :=
  "Stream processor " ++ options.processor ++ " checkpoint " ++ toString checkpoint ++ " is behind retained stream " ++
    options.streamName ++ " floor " ++ toString floor ++ ". Rebuild from authority or increase retention."

/-- `results.find((result) => result.state === 'failed')`. -/
def firstFailed (count : Nat) : Option (String × String) :=
  (List.range count).findSome? fun index =>
    match results index with
    | some (.failed eventId error) => some (eventId, error)
    | _ => none

def countOf (count : Nat) (counts : ProcessResult → Bool) : Nat :=
  (List.range count).countP fun index => (results index).any counts

/-- All lanes are through: the run is paused by the first failure, or stores its checkpoint. -/
def Run.join (run : Run) (batch : Nat) (page : Page Content) (pool : Pool) : Run :=
  match firstFailed pool.results page.items.length with
  | some (eventId, detail) =>
    { run with
      stage := .ended (.error ("Stream processor " ++ options.processor ++ " paused at event " ++ eventId ++ ": " ++
        detail)) }
  | none =>
    { run with
      stage := .advancing batch page
      processed := run.processed + countOf pool.results page.items.length fun
        | .processed _ => true
        | _ => false
      deadLettered := run.deadLettered + countOf pool.results page.items.length fun
        | .deadLettered _ => true
        | _ => false }

def Run.summary (run : Run) (checkpoint : Nat) (exhausted : Bool) : Summary :=
  ⟨run.processed, run.deadLettered, checkpoint, exhausted⟩

def Pool.isDone (pool : Pool) : Bool := pool.workers.all fun
  | .gone => true
  | _ => false

variable (options : Options) (read : Source Content)

def System.goesOn (system : System) (run : Run) (failure : Option String) (effective : Bool) : System × Run :=
  match run.stage, failure with
  | .ended _, _ => (system, run)
  | .working batch _ page, _ =>
    match run.pool with
    | some pool => (system, if pool.isDone then run.join options batch page pool else run)
    | none => (system, run)
  | .advancing _ page, some message =>
    (if effective then { system with checkpoint := max system.checkpoint page.nextSequence } else system,
      { run with stage := .ended (.error message) })
  | .advancing batch page, none =>
    ({ system with checkpoint := max system.checkpoint page.nextSequence },
      { run with
        stage :=
          if page.exhausted then .ended (.ok (run.summary page.nextSequence true))
          else if (batch + 1 : Int) < options.batches then .reading (batch + 1) page.nextSequence
          else .ended (.ok (run.summary page.nextSequence false)) })
  | _, some message => (system, { run with stage := .ended (.error message) })
  | .preparing, none => (system, { run with stage := .loading })
  | .loading, none => (system, { run with stage := .reading 0 system.checkpoint })
  | .reading batch checkpoint, none =>
    let page := read system.log checkpoint options.pageSize.toNat
    (system,
      if page.retentionFloor > checkpoint then
        { run with stage := .ended (.error (retentionGap options checkpoint page.retentionFloor)) }
      else
        { run with
          stage := .working batch checkpoint page
          pool := some (Pool.of options.concurrency.toNat page.items) })

/-- A rejection of one worker is the run's, which then goes on no more. -/
def Run.throws (run : Run) : Option String → Run
  | some message => { run with stage := if run.isOver then run.stage else .ended (.error message) }
  | none => run

def Pool.after (pool : Pool) (worker : Nat) (effect : Effect) : Pool :=
  { pool with
    cursor := effect.cursor
    workers := pool.workers.set worker effect.progress.worker
    results := effect.progress.results }

def Run.after (run : Run) (pool : Pool) (worker : Nat) (effect : Effect) : Run :=
  { run with pool := some (pool.after worker effect), trace := run.trace ++ effect.progress.notices }.throws effect.thrown

def System.next (system : System) : Label → System
  | .append event => { system with log := system.log.append event }
  | .retain through => { system with log := system.log.retain through }
  | .start =>
    if system.runs.all Run.isOver then { system with runs := system.runs ++ [Run.starts options] } else system
  | .main failure effective =>
    match system.runs.getLast? with
    | none => system
    | some run =>
      let (after, run) := system.goesOn options read run failure effective
      { after with runs := after.runs.dropLast ++ [run] }
  | .work index worker move =>
    match system.runs[index]? with
    | none => system
    | some run =>
      match run.pool with
      | none => system
      | some pool =>
        match pool.workers[worker]?.bind (pool.step options · move) with
        | none => system
        | some effect =>
          { system with
            handled := system.handled ++ effect.handled
            deadLetters := effect.buried.foldl bury system.deadLetters
            runs := system.runs.set index (run.after pool worker effect) }
  | .crash =>
    { system with
      runs := system.runs.map fun run =>
        { run with pool := none, stage := if run.isOver then run.stage else .ended (.error "crashed") } }

end Applik8s.Processors
