import Applik8s.OnlineProjection.Rebuild

/-! What live runs and rebuild attempts ask for, and in which order. -/
namespace Applik8s.OnlineProjection
open Lib
variable {Payload Row : Type}

/-- Where a live run is with the first of the events that it has left. -/
inductive LiveStage (Row : Type) where
  | between
  | targeted (generation : String)
  | rows (generation : String) (left : List Row)
  | reserved (generation : String) (left : List Row)
  | written (generation : String)

/-- What an attempt has loaded, up to which sequence of the stream. -/
structure Made (Payload Row : Type) where
  watermark : Nat
  segments : Segments Payload Row

inductive AttemptStage (Payload Row : Type) where
  | named
  | recalled (recovered : Option (Manifest Payload Row))
  | begun (recovered : Option (Manifest Payload Row))
  | resetting (recovered : Option (Manifest Payload Row))
  | deleting (recovered : Option (Manifest Payload Row)) (left : List String)
  | replaying (afterSequence : Nat) (segments : Segments Payload Row)
  /-- The events that are left to write bring the generation to the goal. -/
  | writing (made : Made Payload Row) (left : List (Write Payload Row)) (goal : Nat)
  | caught (made : Made Payload Row) (goal highwater : Nat)
  | rows (made : Made Payload Row) (event : Write Payload Row) (left : List (Write Payload Row)) (goal : Nat)
      (rows : List Row)
  | reserved (made : Made Payload Row) (event : Write Payload Row) (left : List (Write Payload Row)) (goal : Nat)
      (rows : List Row)
  | closing

inductive Phase (Payload Row : Type) where
  | still
  | idle (base : Nat)
  /-- The events that are left bring the run from a checkpoint to the next. -/
  | live (base : Nat) (event : Write Payload Row) (left : List (Write Payload Row)) (upTo : Nat)
      (stage : LiveStage Row)
  | applied (base upTo : Nat)
  | attempt (number : Nat) (stage : AttemptStage Payload Row)

def Phase.behind (base upTo : Nat) : List (Write Payload Row) → Phase Payload Row
  | [] => .applied base upTo
  | event :: left => .live base event left upTo .between

def AttemptStage.load : Option (Manifest Payload Row) → AttemptStage Payload Row
  | none => .replaying 0 []
  | some manifest => .writing ⟨manifest.sourceWatermark, manifest.segments⟩ manifest.segments.flatten manifest.sourceWatermark

def AttemptStage.loaded (watermark : Nat) (segments : Segments Payload Row) : AttemptStage Payload Row :=
  .writing ⟨watermark, segments⟩ segments.flatten watermark

variable (options : WriterOptions Row) (rebuild : RebuildOptions Payload Row) (live : ProjectionOptions Payload Row)

/-- The first of the rows that are left comes to this change. -/
def First (rows : List Row) (change : Change) : Prop := ∃ row rest, rows = row :: rest ∧ options.changeOf row = .ok change

def Phase.permits : Phase Payload Row → Request Payload Row → Prop
  | .still, .setActiveAbsent | .still, .setCheckpointAbsent | .still, .checkpoint | .still, .randomUUID
    | .still, .append _ | .still, .retain _ | .still, .expire => True
  | .idle base, .read afterSequence _ => afterSequence = base
  | .live _ _ _ _ .between, .active => True
  | .live _ _ _ _ (.targeted generation), .highwater asked => asked = generation
  | .live _ _ _ _ (.rows generation left), .reserve none asked partition =>
    asked = generation ∧ ∃ change, First options left change ∧ partition = change.partition
  | .live _ event _ _ (.rows generation left), .advanceHighwater none asked sequence =>
    asked = generation ∧ left = [] ∧ sequence = event.envelope.sequence
  | .live _ event _ _ (.reserved generation left), .applyRow none asked sequence change _ =>
    asked = generation ∧ First options left change ∧ sequence = event.envelope.sequence
  | .live _ event _ _ (.written generation), .advanceActiveCheckpoint asked sequence =>
    asked = generation ∧ sequence = event.envelope.sequence
  | .applied _ upTo, .advanceCheckpoint sequence => sequence = upTo
  | .attempt _ _, .rebuildState => True
  | .attempt _ _, .renew _ _ => True
  | .attempt number _, .abandon _ sender => sender = number
  | .attempt _ .named, .setActiveAbsent | .attempt _ .named, .setCheckpointAbsent | .attempt _ .named, .readManifest
    | .attempt _ (.recalled _), .active | .attempt _ (.begun _), .active => True
  | .attempt number (.recalled _), .begin generation sender => generation = rebuild.generation ∧ sender = number
  | .attempt _ (.resetting _), .members generation => generation = rebuild.generation
  | .attempt number (.deleting _ left), .delete sender generation partition =>
    sender = number ∧ generation = rebuild.generation ∧ ∃ rest, left = partition :: rest
  | .attempt number (.deleting _ left), .reset generation sender =>
    left = [] ∧ generation = rebuild.generation ∧ sender = number
  | .attempt _ (.replaying afterSequence segments), .scan => afterSequence = 0 ∧ segments = []
  | .attempt _ (.replaying afterSequence _), .read asked _ => asked = afterSequence
  | .attempt _ (.writing ..), .highwater generation => generation = rebuild.generation
  | .attempt _ (.writing made left _), .putManifest manifest =>
    left = [] ∧ manifest.sourceWatermark = made.watermark ∧ manifest.segments = made.segments
  | .attempt number (.writing _ left _), .publish generation _ sender =>
    left = [] ∧ generation = rebuild.generation ∧ sender = number
  | .attempt _ (.caught ..), .highwater generation => generation = rebuild.generation
  | .attempt _ (.caught made _ _), .putManifest manifest =>
    manifest.sourceWatermark = made.watermark ∧ manifest.segments = made.segments
  | .attempt _ (.caught _ _ highwater), .read afterSequence _ => afterSequence = highwater
  | .attempt number (.caught _ goal _), .advanceHighwater sender generation sequence =>
    sender = some number ∧ generation = rebuild.generation ∧ sequence = goal
  | .attempt number (.rows _ _ _ _ due), .reserve sender generation partition =>
    sender = some number ∧ generation = rebuild.generation ∧
      ∃ change, First options due change ∧ partition = change.partition
  | .attempt number (.rows _ event _ _ due), .advanceHighwater sender generation sequence =>
    sender = some number ∧ generation = rebuild.generation ∧ due = [] ∧ sequence = event.envelope.sequence
  | .attempt number (.reserved _ event _ _ due), .applyRow sender generation sequence change _ =>
    sender = some number ∧ generation = rebuild.generation ∧ First options due change ∧
      sequence = event.envelope.sequence
  | _, _ => False

/-- Behind a page that was read behind `afterSequence`. -/
def Phase.read (afterSequence : Nat) (page : Streams.Page (Content Payload)) : Phase Payload Row :=
  if page.retentionFloor > afterSequence then .still
  else match projectEvents live.project page.items with
    | .error _ => .still
    | .ok events => .behind afterSequence page.nextSequence events

namespace AttemptStage

def read (afterSequence : Nat) (segments : Segments Payload Row) (page : Streams.Page (Content Payload)) :
    AttemptStage Payload Row :=
  if page.retentionFloor > afterSequence then .closing
  else match persistSegment options rebuild segments page.items with
    | .error _ => .closing
    | .ok segments => if page.exhausted then .loaded page.nextSequence segments else .replaying page.nextSequence segments

def scanned (snapshot : Snapshot Payload) : AttemptStage Payload Row :=
  match rebuild.snapshotPartition with
  | none => .closing
  | some partitionBy =>
    match visitPages options rebuild partitionBy snapshot [] snapshot.pages.zipIdx with
    | .error _ => .closing
    | .ok segments => .loaded snapshot.watermark segments

def next (made : Made Payload Row) (highwater : Nat) (page : Streams.Page (Content Payload)) :
    AttemptStage Payload Row :=
  if page.retentionFloor > highwater then .closing
  else match projectEvents rebuild.project page.items with
    | .error _ => .closing
    | .ok events => .writing made events page.nextSequence

def after (stage : AttemptStage Payload Row) :
    (request : Request Payload Row) → request.Answer → AttemptStage Payload Row
  | .rebuildState, _ | .renew _ _, _ | .setActiveAbsent, _ | .setCheckpointAbsent, _ | .putManifest _, _ => stage
  | .readManifest, recovered => .recalled recovered
  | .begin _ _, acquired =>
    match stage with
    | .recalled recovered => if acquired then .begun recovered else .closing
    | _ => .closing
  | .active, active =>
    match stage with
    | .begun recovered => if active = some rebuild.generation ∨ active = none then .closing else .resetting recovered
    | _ => stage
  | .members _, partitions =>
    match stage with
    | .resetting recovered => .deleting recovered partitions
    | _ => .closing
  | .delete _ _ _, _ =>
    match stage with
    | .deleting recovered (_ :: left) => .deleting recovered left
    | _ => .closing
  | .reset _ _, done =>
    match stage with
    | .deleting recovered _ => if done then .load recovered else .closing
    | _ => .closing
  | .scan, snapshot => scanned options rebuild snapshot
  | .read _ _, page =>
    match stage with
    | .replaying afterSequence segments => read options rebuild afterSequence segments page
    | .caught made _ highwater => next rebuild made highwater page
    | _ => .closing
  | .highwater _, highwater =>
    match stage with
    | .writing made (event :: left) goal =>
      if event.envelope.sequence < highwater then .writing made left goal else .rows made event left goal event.rows
    | .writing made [] goal | .caught made goal _ => .caught made goal highwater
    | _ => .closing
  | .reserve _ _ _, _ =>
    match stage with
    | .rows made event left goal due => .reserved made event left goal due
    | _ => .closing
  | .applyRow _ _ _ _ _, _ =>
    match stage with
    | .reserved made event left goal (_ :: due) => .rows made event left goal due
    | _ => .closing
  | .advanceHighwater _ _ _, _ =>
    match stage with
    | .rows made _ left goal _ => .writing made left goal
    | .caught made goal _ => .writing made [] goal
    | _ => .closing
  | .publish _ _ _, published => if published then .closing else stage
  | _, _ => .closing

end AttemptStage

def LiveStage.after (base : Nat) (event : Write Payload Row) (left : List (Write Payload Row)) (upTo : Nat)
    (stage : LiveStage Row) : (request : Request Payload Row) → request.Answer → Phase Payload Row
  | .active, active =>
    match active with
    | none => .still
    | some generation => .live base event left upTo (.targeted generation)
  | .highwater generation, highwater =>
    .live base event left upTo
      (if event.envelope.sequence < highwater then .written generation else .rows generation event.rows)
  | .reserve _ _ _, _ =>
    match stage with
    | .rows generation due => .live base event left upTo (.reserved generation due)
    | _ => .still
  | .applyRow _ _ _ _ _, _ =>
    match stage with
    | .reserved generation (_ :: due) => .live base event left upTo (.rows generation due)
    | _ => .still
  | .advanceHighwater _ generation _, _ => .live base event left upTo (.written generation)
  | .advanceActiveCheckpoint _ _, committed =>
    if committed then .behind event.envelope.sequence upTo left else .live base event left upTo .between
  | _, _ => .still

def Phase.answered : Phase Payload Row → (request : Request Payload Row) → request.Answer → Phase Payload Row
  | .still, .checkpoint, sequence => .idle sequence
  | .still, .randomUUID, number => .attempt number .named
  | .still, _, _ => .still
  | .idle _, .read afterSequence _, page => Phase.read live afterSequence page
  | .idle _, _, _ => .still
  | .live base event left upTo stage, request, reply => stage.after base event left upTo request reply
  | .applied _ upTo, .advanceCheckpoint _, _ => .idle upTo
  | .applied _ _, _, _ => .still
  | .attempt number stage, request, reply => .attempt number (stage.after options rebuild request reply)

def Phase.failed : Phase Payload Row → Phase Payload Row
  | .attempt number _ => .attempt number .closing
  | _ => .still

def conduct : Conduct (Commands Payload Row) (Phase Payload Row) where
  permits phase request := phase.permits options rebuild request
  answers _ _ := True
  after phase request reply :=
    match reply with
    | .ok value => phase.answered options rebuild live request value
    | .error _ => phase.failed

/-! ### Keeping to it -/

section
variable {options rebuild live} {α : Type} {phase : Phase Payload Row}

theorem obeys_ask {next : req.Answer → Writing Payload Row α} (permitted : phase.permits options rebuild req)
    (failing : ∀ err, close phase.failed (.error err))
    (rest : ∀ answer, Obeys (conduct options rebuild live) close (phase.answered options rebuild live req answer) (next answer))
    : Obeys (conduct options rebuild live) close phase (ask req >>= next) := by
  refine obeys_bind.mpr ⟨permitted, fun reply _ => ?_⟩
  cases reply with
  | error err => exact failing err
  | ok answer => exact rest answer

theorem obeys_ask_last (permitted : phase.permits options rebuild req)
    (failing : ∀ err, close phase.failed (.error err))
    (rest : ∀ answer, close (phase.answered options rebuild live req answer) (.ok answer)) :
    Obeys (conduct options rebuild live) close phase (ask req) := by
  refine ⟨permitted, fun reply _ => ?_⟩
  cases reply with
  | error err => exact failing err
  | ok answer => exact rest answer

/-- A part of a program that, where it succeeds, leads to a phase. -/
def To (target : Phase Payload Row) (failing : Phase Payload Row → Prop) (now : Phase Payload Row) :
    Except String α → Prop
  | .ok _ => now = target
  | .error _ => failing now

theorem obeys_to {close : Phase Payload Row → Except String α → Prop} {β : Type} {prog : Writing Payload Row β}
    {next : β → Writing Payload Row α} (target : Phase Payload Row) (failing : Phase Payload Row → Prop)
    (first : Obeys (conduct options rebuild live) (To target failing) phase prog)
    (fails : ∀ now err, failing now → close now (.error err))
    (rest : ∀ value, Obeys (conduct options rebuild live) close target (next value)) :
    Obeys (conduct options rebuild live) close phase (prog >>= next) := by
  refine obeys_bind.mpr (first.weaken ?_)
  rintro now (err | value) reached
  · exact fails now err reached
  · cases reached
    exact rest value

theorem obeys_activeGeneration (permitted : phase.permits options rebuild .active)
    (failing : ∀ err, close phase.failed (.error err))
    (missing : ∀ active err, close (phase.answered options rebuild live .active active) (.error err))
    (rest : ∀ gen, close (phase.answered options rebuild live .active (some gen)) (.ok gen)) :
    Obeys (conduct options rebuild live) close phase (activeGeneration options) := by
  refine obeys_ask permitted failing fun active => ?_
  split
  · exact missing none _
  · exact missing (some "") _
  · exact rest _

variable {base upTo : Nat} {event : Write Payload Row} {left : List (Write Payload Row)} {generation : String}

/-! #### The live run -/

private def Any (_ : Phase Payload Row) : Prop := True

theorem obeys_liveRows (due : List Row) : Obeys (conduct options rebuild live)
    (To (.live base event left upTo (.rows gen [])) Any) (.live base event left upTo (.rows gen due))
    (Program.forEach due (writeRow options gen none event.envelope)) := by
  induction due with
  | nil => exact rfl
  | cons row due ih =>
    refine obeys_to (.live base event left upTo (.rows gen due)) Any ?_ (fun _ _ _ => trivial) fun _ => ih
    refine obeys_check_bind (fun _ _ => trivial) fun change is => ?_
    have first : First options (row :: due) change := ⟨row, due, rfl, is⟩
    exact obeys_ask ⟨rfl, change, first, rfl⟩ (fun _ => trivial) fun _ =>
      obeys_ask_last ⟨rfl, first, rfl⟩ (fun _ => trivial) fun _ => rfl

theorem obeys_liveEvent : Obeys (conduct options rebuild live)
    (To (.live base event left upTo (.written gen)) Any) (.live base event left upTo (.targeted gen))
    (writeToGeneration options gen [event] none) := by
  refine obeys_to (.live base event left upTo (.written gen)) Any ?_ (fun _ _ _ => trivial) fun _ => rfl
  refine obeys_ask rfl (fun _ => trivial) fun highwater => ?_
  change Obeys _ _ (Phase.live base event left upTo (if event.envelope.sequence < highwater then .written gen
    else .rows gen event.rows)) (if event.envelope.sequence < highwater then pure () else _)
  split
  · exact rfl
  · exact obeys_to _ _ (obeys_liveRows event.rows) (fun _ _ _ => trivial) fun _ =>
      obeys_ask_last ⟨rfl, rfl, rfl⟩ (fun _ => trivial) fun _ => rfl

theorem obeys_writeActive (attempts : Nat) : Obeys (conduct options rebuild live)
    (To (.behind event.envelope.sequence upTo left) Any) (.live base event left upTo .between)
    (writeActive options event attempts) := by
  induction attempts with
  | zero => exact trivial
  | succ attempts ih =>
    refine obeys_bind.mpr (obeys_activeGeneration trivial (fun _ => trivial) (fun _ _ => trivial) fun gen => ?_)
    refine obeys_to _ _ obeys_liveEvent (fun _ _ _ => trivial) fun _ => ?_
    refine obeys_ask ⟨rfl, rfl⟩ (fun _ => trivial) fun committed => ?_
    cases committed with
    | true => exact rfl
    | false => exact ih

theorem obeys_write (events : List (Write Payload Row)) : Obeys (conduct options rebuild live)
    (fun phase res => match res with
      | .ok _ => ∃ base, phase = .applied base upTo
      | .error _ => True) (.behind base upTo events) (write options events) := by
  induction events generalizing base with
  | nil => exact ⟨base, rfl⟩
  | cons event left ih => exact obeys_to _ _ (obeys_writeActive 4) (fun _ _ _ => trivial) fun _ => ih

theorem obeys_runBatches (batches mark processed : Nat) : Obeys (conduct options rebuild live)
    (fun _ _ => True) (.idle mark) (runBatches options live batches mark processed) := by
  induction batches generalizing mark processed with
  | zero => exact trivial
  | succ batches ih =>
    refine obeys_ask rfl (fun _ => trivial) fun page => ?_
    change Obeys _ _ (Phase.read live mark page) _
    unfold Phase.read
    split
    · exact trivial
    refine obeys_check_bind (fun _ _ => trivial) fun events is => ?_
    rw [is]
    refine obeys_bind.mpr ((obeys_write events).weaken ?_)
    rintro _ (_ | ⟨⟩) reached
    · exact trivial
    obtain ⟨_, rfl⟩ := reached
    refine obeys_ask rfl (fun _ => trivial) fun _ => ?_
    split
    · exact trivial
    · exact ih ..

theorem obeys_project : Obeys (conduct options rebuild live) (fun _ _ => True) .still
    (runApplicationProjection options live) := by
  unfold runApplicationProjection prepare
  split
  · exact trivial
  split
  · exact trivial
  refine obeys_to .still Any ?_ (fun _ _ _ => trivial) fun _ => ?_
  · exact obeys_ask trivial (fun _ => trivial) fun _ => obeys_ask_last trivial (fun _ => trivial) fun _ => rfl
  · exact obeys_ask trivial (fun _ => trivial) fun seq => obeys_runBatches ..

variable {number goal : Nat} {made : Made Payload Row}

def Within (number : Nat) (phase : Phase Payload Row) : Prop := ∃ stage, phase = .attempt number stage

private theorem within_failed : Within num (Phase.attempt num stage).failed := ⟨_, rfl⟩

theorem obeys_renew : Obeys (conduct options rebuild live) (To (.attempt num stage) (Within num)) (.attempt num stage)
    (renewGenerationAttempt options gen (some num)) := by
  refine obeys_ask trivial (fun _ => within_failed) fun owned => ?_
  cases owned with
  | true => exact rfl
  | false => exact ⟨_, rfl⟩

theorem obeys_attemptRows (due : List Row) : Obeys (conduct options rebuild live)
    (To (.attempt num (.rows made event left goal [])) (Within num)) (.attempt num (.rows made event left goal due))
    (Program.forEach due (writeRow options rebuild.generation (some num) event.envelope)) := by
  induction due with
  | nil => exact rfl
  | cons row due ih =>
    refine obeys_to (.attempt num (.rows made event left goal due)) (Within num) ?_ (fun _ _ within => within)
      fun _ => ih
    refine obeys_to _ _ obeys_renew (fun _ _ within => within) fun _ => ?_
    refine obeys_check_bind (fun _ _ => ⟨_, rfl⟩) fun change is => ?_
    have first : First options (row :: due) change := ⟨row, due, rfl, is⟩
    exact obeys_ask ⟨rfl, rfl, change, first, rfl⟩ (fun _ => within_failed) fun _ =>
      obeys_ask_last ⟨rfl, rfl, first, rfl⟩ (fun _ => within_failed) fun _ => rfl

theorem obeys_attemptEvent : Obeys (conduct options rebuild live)
    (To (.attempt num (.writing made left goal)) (Within num)) (.attempt num (.writing made (event :: left) goal))
    (writeEvent options rebuild.generation (some num) event) := by
  refine obeys_to _ _ obeys_renew (fun _ _ within => within) fun _ => ?_
  refine obeys_ask rfl (fun _ => within_failed) fun highwater => ?_
  change Obeys _ _ (Phase.attempt num (if event.envelope.sequence < highwater then .writing made left goal
    else .rows made event left goal event.rows)) _
  split
  · exact rfl
  · exact obeys_to _ _ (obeys_attemptRows event.rows) (fun _ _ within => within) fun _ =>
      obeys_ask_last ⟨rfl, rfl, rfl, rfl⟩ (fun _ => within_failed) fun _ => rfl

theorem obeys_writeGeneration (events : List (Write Payload Row)) : Obeys (conduct options rebuild live)
    (To (.attempt num (.writing made left goal)) (Within num)) (.attempt num (.writing made (events ++ left) goal))
    (writeGeneration options rebuild.generation num events) := by
  refine obeys_to _ _ obeys_renew (fun _ _ within => within) fun _ => ?_
  induction events with
  | nil => exact rfl
  | cons _ _ ih => exact obeys_to _ _ obeys_attemptEvent (fun _ _ within => within) fun _ => ih

theorem obeys_segments (segments : Segments Payload Row) : Obeys (conduct options rebuild live)
    (To (.attempt num (.writing made left goal)) (Within num))
    (.attempt num (.writing made (segments.flatten ++ left) goal))
    (Program.forEach segments (writeGeneration options rebuild.generation num)) := by
  induction segments with
  | nil => exact rfl
  | cons segment segments ih =>
    rw [List.flatten_cons, List.append_assoc]
    exact obeys_to _ _ (obeys_writeGeneration segment) (fun _ _ within => within) fun _ => ih

def Ready (made : Made Payload Row) (goal number : Nat) (phase : Phase Payload Row) : Prop :=
  phase = .attempt number (.writing made [] goal) ∨ ∃ highwater, phase = .attempt number (.caught made goal highwater)

def ToReady (made : Made Payload Row) (goal number : Nat) (phase : Phase Payload Row) : Except String α → Prop
  | .ok _ => Ready made goal number phase
  | .error _ => Within number phase

theorem obeys_watermark (payload : Payload) (recordedAt : Int) : Obeys (conduct options rebuild live)
    (ToReady made goal num) (.attempt num (.writing made [] goal))
    (writeGeneration options rebuild.generation num [snapshotWatermark options rebuild payload goal recordedAt]) := by
  refine obeys_to _ _ obeys_renew (fun _ _ within => within) fun _ => ?_
  refine obeys_bind.mpr (Obeys.weaken (?_ : Obeys _ (ToReady made goal num) _ _) ?_)
  · refine obeys_to _ _ obeys_renew (fun _ _ within => within) fun _ => ?_
    refine obeys_ask rfl (fun _ => within_failed) fun highwater => ?_
    split
    · exact .inr ⟨highwater, rfl⟩
    · exact obeys_ask_last ⟨rfl, rfl, rfl⟩ (fun _ => within_failed) fun _ => .inl rfl
  · rintro _ (_ | ⟨⟩) reached <;> exact reached

theorem obeys_catchUp (prev : String) (rounds : Nat) : ∀ {goal phase}, Ready made goal num phase →
    Obeys (conduct options rebuild live) (fun phase _ => Within num phase) phase
      (catchUp options rebuild num prev rounds) := by
  induction rounds with
  | zero => rintro goal phase (rfl | ⟨highwater, rfl⟩) <;> exact ⟨_, rfl⟩
  | succ rounds ih =>
    intro goal phase ready
    have caught : phase.permits options rebuild (.highwater rebuild.generation) ∧ ∀ highwater,
        phase.answered options rebuild live (.highwater rebuild.generation) highwater =
          .attempt num (.caught made goal highwater) ∧ Within num phase.failed := by
      rcases ready with rfl | ⟨highwater, rfl⟩ <;> exact ⟨rfl, fun _ => ⟨rfl, within_failed⟩⟩
    refine obeys_ask caught.1 (fun _ => (caught.2 0).2) fun highwater => ?_
    rw [(caught.2 highwater).1]
    refine obeys_ask rfl (fun _ => within_failed) fun page => ?_
    change Obeys _ _ (Phase.attempt num (AttemptStage.next rebuild made highwater page)) _
    unfold AttemptStage.next
    split
    · exact ⟨_, rfl⟩
    refine obeys_check_bind (fun _ _ => ⟨_, rfl⟩) fun events is => ?_
    rw [is]
    have writes : Obeys (conduct options rebuild live) _ (.attempt num (.writing made (events ++ [])
      page.nextSequence)) (writeGeneration options rebuild.generation num events) := obeys_writeGeneration events
    rw [List.append_nil] at writes
    refine obeys_to _ _ writes (fun _ _ within => within) fun _ => ?_
    split
    · exact ih (.inl rfl)
    refine obeys_ask ⟨rfl, rfl, rfl⟩ (fun _ => within_failed) fun published => ?_
    cases published with
    | true => exact ⟨_, rfl⟩
    | false =>
      refine obeys_ask trivial (fun _ => within_failed) fun state => ?_
      dsimp only
      split
      · exact ⟨_, rfl⟩
      split
      · exact ⟨_, rfl⟩
      · exact ih (.inl rfl)

theorem obeys_deletePartitions (parts : List String) :
    Obeys (conduct options rebuild live) (To (.attempt num (.deleting recovered [])) (Within num))
      (.attempt num (.deleting recovered parts))
      (Program.forEach parts (deletePartition options rebuild.generation num)) := by
  induction parts with
  | nil => exact rfl
  | cons _ rest ih =>
    refine obeys_to (.attempt num (.deleting recovered rest)) (Within num) ?_ (fun _ _ within => within) fun _ => ih
    exact obeys_to _ _ obeys_renew (fun _ _ within => within) fun _ =>
      obeys_ask_last ⟨rfl, rfl, rest, rfl⟩ (fun _ => within_failed) fun _ => rfl

theorem obeys_resetGeneration : Obeys (conduct options rebuild live)
    (To (.attempt num (.load recovered)) (Within num)) (.attempt num (.begun recovered))
    (resetGeneration options rebuild.generation num) := by
  refine obeys_bind.mpr (obeys_activeGeneration trivial (fun _ => within_failed) (fun _ _ => ⟨_, rfl⟩) fun active => ?_)
  dsimp only
  split
  · exact ⟨_, rfl⟩
  next other =>
  have resets : ¬ (some active = some rebuild.generation ∨ some active = none) := by
    rintro (is | is)
    · exact other (Option.some.inj is).symm
    · cases is
  change Obeys _ _ (Phase.attempt num (if some active = some rebuild.generation ∨ some active = none then .closing
    else .resetting recovered)) _
  rw [if_neg resets]
  refine obeys_to _ _ obeys_renew (fun _ _ within => within) fun _ => ?_
  refine obeys_ask rfl (fun _ => within_failed) fun parts => ?_
  refine obeys_to _ _ (obeys_deletePartitions parts) (fun _ _ within => within) fun _ => ?_
  refine obeys_ask ⟨rfl, rfl, rfl⟩ (fun _ => within_failed) fun done => ?_
  cases done with
  | true => exact rfl
  | false => exact ⟨_, rfl⟩

theorem obeys_replayStream (ordinals afterSequence : Nat) (segments : Segments Payload Row) :
    Obeys (conduct options rebuild live) (fun phase res => match res with
        | .ok (watermark, segments) => phase = .attempt num (.loaded watermark segments)
        | .error _ => Within num phase) (.attempt num (.replaying afterSequence segments))
      (replayStream options rebuild ordinals afterSequence segments) := by
  induction ordinals generalizing afterSequence segments with
  | zero => exact ⟨_, rfl⟩
  | succ ordinals ih =>
    refine obeys_ask rfl (fun _ => within_failed) fun page => ?_
    change Obeys _ _ (Phase.attempt num (AttemptStage.read options rebuild afterSequence segments page)) _
    unfold AttemptStage.read
    split
    · exact ⟨_, rfl⟩
    refine obeys_check_bind (fun _ _ => ⟨_, rfl⟩) fun further is => ?_
    rw [is]
    dsimp only
    split
    · exact rfl
    · exact ih ..

theorem obeys_loadSegments (recovered : Option (Manifest Payload Row)) : Obeys (conduct options rebuild live)
    (fun phase res => match res with
      | .ok (watermark, _, segments) => phase = .attempt num (.loaded watermark segments) ∧
          ∀ manifest, recovered = some manifest → watermark = manifest.sourceWatermark ∧ segments = manifest.segments
      | .error _ => Within num phase) (.attempt num (.load recovered))
    (loadSegments options rebuild recovered) := by
  unfold loadSegments
  cases recovered with
  | some => exact ⟨rfl, by rintro _ ⟨⟩; exact ⟨rfl, rfl⟩⟩
  | none =>
    cases authority : rebuild.snapshotPartition with
    | some =>
      refine obeys_ask ⟨rfl, rfl⟩ (fun _ => within_failed) fun snap => ?_
      change Obeys _ _ (Phase.attempt num (AttemptStage.scanned options rebuild snap)) _
      unfold AttemptStage.scanned
      rw [authority]
      dsimp only
      refine obeys_check_bind (fun _ _ => ⟨_, rfl⟩) fun segments is => ?_
      rw [is]
      exact ⟨rfl, nofun⟩
    | none =>
      refine obeys_bind.mpr ((obeys_replayStream _ 0 []).weaken ?_)
      rintro _ (_ | ⟨_, _⟩) reached
      · exact reached
      · exact ⟨reached, nofun⟩

theorem obeys_writeWatermark [Inhabited Payload] (watermark : Nat) (recordedAt : Option Int) :
    Obeys (conduct options rebuild live) (ToReady made watermark num)
      (.attempt num (.writing made [] watermark)) (writeWatermark options rebuild num watermark recordedAt) := by
  unfold writeWatermark
  split
  · split
    · exact ⟨_, rfl⟩
    · exact obeys_watermark _ _
  · exact .inl rfl

theorem obeys_persistManifest {manifest : Manifest Payload Row} (ready : Ready made goal num phase)
    (carries : recovered.isNone = true → manifest.sourceWatermark = made.watermark ∧ manifest.segments = made.segments)
    : Obeys (conduct options rebuild live) (ToReady made goal num) phase (persistManifest recovered manifest) := by
  unfold persistManifest
  split
  · next none =>
    obtain ⟨watermark, segments⟩ := carries none
    rcases ready with rfl | ⟨highwater, rfl⟩
    · exact obeys_ask_last ⟨rfl, watermark, segments⟩ (fun _ => within_failed) fun _ => .inl rfl
    · exact obeys_ask_last ⟨watermark, segments⟩ (fun _ => within_failed) fun _ => .inr ⟨highwater, rfl⟩
  · exact ready

theorem obeys_rebuildGeneration [Inhabited Payload] (captured : String × Nat)
    (recovered : Option (Manifest Payload Row))
    : Obeys (conduct options rebuild live) (fun phase _ => Within num phase)
      (.attempt num (.begun recovered)) (rebuildGeneration options rebuild num captured recovered) := by
  refine obeys_to _ _ obeys_resetGeneration (fun _ _ within => within) fun _ => ?_
  refine obeys_bind.mpr ((obeys_loadSegments recovered).weaken ?_)
  rintro phase (err | ⟨watermark, recordedAt, segments⟩) reached
  · exact reached
  obtain ⟨rfl, _⟩ := reached
  have writes : Obeys (conduct options rebuild live) _ (.attempt num (.writing ⟨watermark, segments⟩
    (segments.flatten ++ []) watermark)) (Program.forEach segments (writeGeneration options rebuild.generation num)) :=
    obeys_segments segments
  rw [List.append_nil] at writes
  refine obeys_to _ _ writes (fun _ _ within => within) fun _ => ?_
  refine obeys_bind.mpr ((obeys_writeWatermark watermark recordedAt).weaken ?_)
  rintro phase (err | ⟨⟩) ready
  · exact ready
  generalize written : recovered.getD _ = manifest
  have carries : recovered.isNone = true → manifest.sourceWatermark = watermark ∧ manifest.segments = segments := by
    intro none
    rw [Option.isNone_iff_eq_none.mp none] at written
    subst written
    exact ⟨rfl, rfl⟩
  refine obeys_bind.mpr ((obeys_persistManifest ready carries).weaken ?_)
  rintro phase (err | ⟨⟩) ready
  · exact ready
  refine obeys_bind.mpr ((obeys_catchUp manifest.previousGeneration _ ready).weaken ?_)
  rintro _ (_ | ⟨⟩) ⟨_, rfl⟩
  · exact ⟨_, rfl⟩
  refine obeys_ask trivial (fun _ => within_failed) fun state => ?_
  dsimp only
  split <;> exact ⟨_, rfl⟩

theorem obeys_runRebuild [Inhabited Payload] : Obeys (conduct options rebuild live) (fun _ _ => True) .still
    (runRebuild options rebuild) := by
  refine obeys_ask trivial (fun _ => trivial) fun num => ?_
  refine obeys_check_bind (fun _ _ => trivial) fun _ _ => ?_
  refine obeys_to (.attempt num .named) (Within num) ?_ (fun _ _ _ => trivial) fun _ => ?_
  · exact obeys_ask trivial (fun _ => within_failed) fun _ =>
      obeys_ask_last trivial (fun _ => within_failed) fun _ => rfl
  refine obeys_ask trivial (fun _ => trivial) fun state => ?_
  split
  · exact trivial
  · exact trivial
  refine obeys_ask trivial (fun _ => trivial) fun recovered => ?_
  split
  · split
    · exact trivial
    · split <;> exact trivial
  split
  · exact trivial
  split
  · exact trivial
  split
  · exact trivial
  refine obeys_to (.attempt num (.begun recovered)) (fun _ => True) ?_ (fun _ _ _ => trivial) fun _ => ?_
  · refine obeys_bind.mpr (obeys_activeGeneration trivial (fun _ => trivial) (fun _ _ => trivial) fun active => ?_)
    dsimp only
    split
    · exact trivial
    refine obeys_ask ⟨rfl, rfl⟩ (fun _ => trivial) fun acquired => ?_
    cases acquired with
    | true => exact rfl
    | false => exact trivial
  refine obeys_bind.mpr (obeys_attempt.mpr ((obeys_rebuildGeneration _ recovered).weaken ?_))
  rintro _ (_ | _) ⟨_, rfl⟩
  · refine obeys_bind.mpr (obeys_attempt.mpr (obeys_ask_last rfl (fun _ => trivial) fun _ => trivial))
  · exact trivial

theorem obeys_body [Inhabited Payload] (op : Operation Payload) : Obeys (conduct options rebuild live)
    (fun _ _ => True) .still (body options rebuild live op) := by
  cases op with
  | project =>
    refine obeys_bind.mpr (obeys_project.weaken ?_)
    rintro phase (err | result) - <;> exact trivial
  | rebuild =>
    refine obeys_bind.mpr (obeys_runRebuild.weaken ?_)
    rintro _ (_ | _) - <;> exact trivial
  | append event => exact obeys_ask_last trivial (fun _ => trivial) fun _ => trivial
  | retain => exact obeys_ask_last trivial (fun _ => trivial) fun _ => trivial
  | expire => exact obeys_ask_last trivial (fun _ => trivial) fun _ => trivial

end
end Applik8s.OnlineProjection
