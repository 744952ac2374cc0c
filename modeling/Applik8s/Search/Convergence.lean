import Applik8s.Search.Generations

/-! The documents of a PostgreSQL search index against the history its sources tell of. While the
active generation is left alone by rebuilds, its documents are those of the history at its
checkpoint, and the checkpoint that is read never goes back. -/
namespace Applik8s.Search.Postgres
open Lib
variable {Document : Type} {opts : RuntimeOptions} {tables after' : Tables Document}
  {checksum : Record (StoredDocument Document) → String} {source : Source Document}

def Told (source : Source Document) : (request : Request Document) → request.Result → Prop
  | .affectedRoots change _, affected => source.Roots change affected
  | .hydrate identities frontier, hydrated => source.Hydrates identities frontier hydrated
  | .openSnapshot, opened => opened.frontier = source.frontier opened.snapshotId
  | .readSnapshot snapshotId cursor _, page => source.Pages snapshotId cursor page
  | _, _ => True

/-- The watermark that the change source has reported covers the changes it has delivered to a
generation that is made the active one. -/
def Covered (tables : Tables Document) : Request Document → Prop
  | .cutOver generation _ => ∀ checkpoint, tables.generations generation = some checkpoint →
      checkpoint ≤ tables.index.sourceHighWatermark
  | _ => True

instance Covered.decidable (tables : Tables Document) :
    (request : Request Document) → Decidable (Covered tables request)
  | .cutOver generation _ =>
    decidable_of_iff (∀ checkpoint ∈ tables.generations generation,
      checkpoint ≤ tables.index.sourceHighWatermark) Iff.rfl
  | .readState | .remember _ _ | .recall _ | .recordPage _ _ | .markLagging | .applyChange _ _ _ _
  | .beginRebuild _ | .writePage _ _ _ | .readAggregate _ | .readSample _ | .discard _ | .retire _
  | .readChanges _ _ | .affectedRoots _ _ | .hydrate _ _ | .openSnapshot | .readSnapshot _ _ _
  | .closeSnapshot _ | .validate _ => inferInstanceAs (Decidable True)

instance asks_covered (system : System Document) (caller : Nat) :
    Decidable (system.Asks caller (Covered system.world.tables)) :=
  system.decideAsks caller (Covered.decidable system.world.tables)

/-- What the sources answer at this step, or have answered, tells of the history. -/
def ToldStep (source : Source Document) (system : System Document) : Event Document → Prop
  | .step caller answer => ∀ call request rest, system.callers caller = some ⟨call, .call request rest⟩ →
      Told source request (answer.outside request) ∧ Covered system.world.tables request
  | _ => True

variable {request : Request Document} {answer : Answer Document}

theorem answers_told (told : Told source req (answer.outside req)) :
    answers source.reckoning req ((server opts checksum).answer req answer world).1 := by
  obtain ⟨fate, _⟩ := answer
  cases req with
  | affectedRoots => cases fate <;> trivial
  | hydrate => cases fate <;> trivial
  | openSnapshot => cases fate <;> trivial
  | readSnapshot => cases fate <;> trivial
  | _ => trivial

/-- The rows a rebuild has written are those of the history, as far as it has come. -/
def Phase.Tells (source : Source Document) : Phase Document → Prop
  | .building _ _ documents .opening => documents = []
  | .building _ _ documents (.paging opened cursor) =>
    opened.frontier = source.frontier opened.snapshotId ∧
      source.Partly opened.snapshotId cursor documents
  | .building _ _ documents (.holding opened cursor page) =>
    opened.frontier = source.frontier opened.snapshotId ∧
      source.Partly opened.snapshotId cursor documents ∧ source.Pages opened.snapshotId cursor page
  | .building _ checkpoint documents .loaded => source.Holds documents checkpoint
  | _ => True

/-- The active generation holds the documents of its checkpoint, which the watermark covers. -/
def Converged (source : Source Document) (tables : Tables Document) : Prop :=
  ∀ checkpoint, tables.generations tables.index.activeGeneration = some checkpoint →
    source.Holds (tables.documents tables.index.activeGeneration) checkpoint ∧
      checkpoint ≤ tables.index.sourceHighWatermark

/-- The checkpoint of the active generation does not go back. -/
def Advances (tables after : Tables Document) : Prop :=
  ∀ checkpoint, tables.generations tables.index.activeGeneration = some checkpoint →
    ∃ later, after.generations after.index.activeGeneration = some later ∧ checkpoint ≤ later

theorem Advances.refl (tables : Tables Document) : Advances tables tables :=
  fun mark found => ⟨mark, found, le_rfl⟩

theorem converged_of_rows (converged : Converged source tables)
    (active : after'.index.activeGeneration = tables.index.activeGeneration)
    (watermark : tables.index.sourceHighWatermark ≤ after'.index.sourceHighWatermark)
    (rows : SameRows tables after' tables.index.activeGeneration) :
    Converged source after' ∧ Advances tables after' := by
  constructor
  · intro mark found
    rw [active] at found ⊢
    rw [rows.1] at found
    rw [rows.2]
    exact ⟨(converged mark found).1, (converged mark found).2.trans watermark⟩
  · intro mark found
    rw [active, rows.1]
    exact ⟨mark, found, le_rfl⟩

theorem converged_applied (converged : Converged source tables) (right : source.Right change hydrated)
    (found : tables.generations tables.index.activeGeneration = some mark)
    (contiguous : change.commitPosition = mark + 1)
    (sets : Sets tables after' tables.index.activeGeneration (some change.commitPosition) (replaceDocuments (tables.documents tables.index.activeGeneration) hydrated))
    (index : after'.index = appliedIndex tables.index change) : Converged source after' ∧ Advances tables after' := by
  have active : after'.index.activeGeneration = tables.index.activeGeneration := by rw [index]; rfl
  have rows : after'.generations after'.index.activeGeneration = some change.commitPosition := by
    rw [active, sets.1, Function.update_self]
  constructor
  · intro reached found'
    cases rows.symm.trans found'
    rw [active, sets.2, Function.update_self, index]
    exact ⟨(converged mark found).1.apply right contiguous, le_max_right _ _⟩
  · intro before found'
    cases found.symm.trans found'
    exact ⟨change.commitPosition, rows, by omega⟩

theorem transaction_converged (permitted : permits source.reckoning phase req) (agrees : Agrees tables phase)
    (tells : phase.Tells source) (converged : Converged source tables) (covered : Covered tables req)
    (effect : Effect tables req value after') : Converged source after' ∧ Advances tables after' := by
  cases effect with
  | recordPage => exact converged_of_rows converged rfl (le_max_left _ _) ⟨rfl, rfl⟩
  | markLagging => exact converged_of_rows converged rfl le_rfl ⟨rfl, rfl⟩
  | applied updates _ admitted found contiguous sets index =>
    cases updates with
    | true =>
      obtain ⟨rfl, -⟩ := admitted rfl
      exact converged_applied converged permitted.1 found contiguous sets index
    | false =>
      obtain ⟨-, _, docs, rfl⟩ := permitted
      have index : after'.index = tables.index := index
      exact converged_of_rows converged (by rw [index]) (by rw [index]) (sets.apart agrees.1.2.2)
  | begun inactive free sets index =>
    exact converged_of_rows converged (by rw [index]) (by rw [index]) (sets.apart inactive)
  | written sets index =>
    obtain ⟨mark, docs, _, _, _, rfl, -⟩ := permitted
    exact converged_of_rows converged (by rw [index]) (by rw [index]) (sets.apart agrees.1.2.2)
  | @cutOver gen _ _ _ _ _ gens sameDocuments index =>
    -- the generation is loaded, and has come as far as the watermark, so as far as the active one
    obtain ⟨mark, _, rfl, _⟩ := permitted
    obtain ⟨-, rows, documentsAre⟩ := agrees
    have active : after'.index.activeGeneration = gen := by rw [index]
    have watermark : after'.index.sourceHighWatermark = tables.index.sourceHighWatermark := by
      rw [index]
    constructor
    · intro now found
      rw [active, gens, rows] at found
      cases found
      rw [active, sameDocuments, documentsAre, watermark]
      exact ⟨tells, covered mark rows⟩
    · intro before found
      refine ⟨mark, by rw [active, gens, rows], ?_⟩
      have behind := (converged before found).2
      omega
  | discarded sets =>
    exact converged_of_rows converged rfl le_rfl (sets.apart (inactive_of_discard permitted agrees))
  | retired inactive apart sets index =>
    exact converged_of_rows converged (by rw [index]) (by rw [index]) (sets.apart inactive)
  | _ => exact ⟨converged, .refl _⟩

theorem step_tells (permitted : permits source.reckoning phase req) (agrees : Agrees world.tables phase)
    (tells : phase.Tells source) (answered : answers source.reckoning req reply)
    (came : (server opts checksum).answer req answer world = (reply, world')) :
    (after phase req reply).Tells source := by
  cases req with
  | readState =>
    cases reply with
    | ok state => exact tells
    | error => cases phase <;> trivial
  | openSnapshot =>
    cases reply with
    | error => exact tells
    | ok opened =>
      obtain ⟨gen, rfl⟩ := permitted
      exact ⟨answered, source.partly_nil opened.snapshotId⟩
  | readSnapshot =>
    cases reply with
    | error => exact tells
    | ok page =>
      obtain ⟨_, mark, docs, opened, rfl, rfl⟩ := permitted
      exact ⟨tells.1, tells.2, answered⟩
  | writePage _ _ frontier =>
    obtain ⟨mark, docs, _, _, page, rfl, rfl, rfl⟩ := permitted
    cases reply with
    | error => trivial
    | ok _ =>
      obtain ⟨frontier, partly, pages⟩ := tells
      cases last : page.exhausted with
      | true =>
        simp only [after, last, if_true, Phase.Tells]
        rw [frontier]
        exact partly.last pages last
      | false =>
        simp only [after, last, Bool.false_eq_true, if_false, Phase.Tells]
        exact ⟨frontier, partly.further pages last⟩
  | applyChange _ _ _ updates =>
    cases updates with
    | true => exact tells
    | false =>
      obtain ⟨right, _, _, rfl⟩ := permitted
      cases reply with
      | error => trivial
      | ok applied =>
        rcases answer_cases came with ⟨_, done, ⟨-, same⟩ | ⟨-, failed⟩⟩ | ⟨-, failed⟩
        · cases same
          generalize world'.tables = left at done
          cases transaction_effect done with
          | known _ stored found known =>
            cases found.symm.trans agrees.2.1
            simp only [after, Phase.Tells, max_eq_left known]
            exact tells
          | applied _ stored _ found contiguous =>
            cases found.symm.trans agrees.2.1
            exact tells.apply right contiguous
        · cases failed
        · obtain ⟨_, failed, -⟩ := failed _ rfl
          cases failed
  | beginRebuild =>
    cases reply with
    | error => exact tells
    | ok _ => rfl
  | cutOver => cases reply <;> trivial
  | discard => trivial
  | _ => exact tells

section
variable {system : System Document}

/-- The tables are sound, their active generation is in step with the history, and so is every
rebuild. -/
structure InStep (source : Source Document) (world : World Document)
    (phases : Nat → Option (Call × Phase Document)) : Prop where
  sound : Sound world phases
  converged : Converged source world.tables
  tells : ∀ caller call phase, phases caller = some (call, phase) → phase.Tells source

theorem step_converged {reply : Except Failure request.Result} (permitted : permits source.reckoning phase request)
    (agrees : Agrees world.tables phase) (tells : phase.Tells source) (converged : Converged source world.tables)
    (covered : Covered world.tables request)
    (came : (server opts checksum).answer request answer world = (reply, world')) :
    Converged source world'.tables ∧ Advances world.tables world'.tables := by
  rcases answer_cases came with ⟨_, done, -⟩ | ⟨same, -⟩
  · exact transaction_converged permitted agrees tells converged covered (transaction_effect done)
  · rw [same]
    exact ⟨converged, .refl _⟩

theorem initial_tells (call : Call) : (call.initial : Phase Document).Tells source := by
  unfold Call.initial
  split <;> trivial

theorem keeps_inStep (opts : RuntimeOptions) (checksum : Record (StoredDocument Document) → String)
    (source : Source Document) : Crowd.Keeps (server opts checksum) (Call.body opts) (conduct source.reckoning)
      (InStep source) (fun sys event => Orderly sys event ∧ ToldStep source sys event) Call.initial where
  conducted := conducted source.reckoning opts
  start sys phases caller call conducted held _ allowed := by
    refine ⟨held.sound.start conducted allowed.1, held.converged, ?_⟩
    intro other call' phase' here
    rw [Function.update_apply] at here
    split at here
    · cases Option.some.inj here
      exact initial_tells call
    · exact held.tells other call' phase' here
  call sys phases caller answer call phase req rest _ held here running permitted allowed := by
    obtain ⟨told, covered⟩ := allowed.2 call req rest running
    have answered : answers source.reckoning req
        ((server opts checksum).answer req answer sys.world).1 := answers_told told
    have agrees := held.sound.agrees caller call phase here
    have tells := held.tells caller call phase here
    refine ⟨answered, held.sound.called opts checksum here running permitted allowed.1,
      (step_converged permitted agrees tells held.converged covered rfl).1, ?_⟩
    intro other call' phase' there
    rw [Function.update_apply] at there
    split at there
    · cases Option.some.inj there
      exact step_tells permitted agrees tells answered rfl
    · exact held.tells other call' phase' there
  leave world phases caller held := by
    refine ⟨held.sound.leave caller, held.converged, ?_⟩
    intro other call phase here
    rw [Function.update_apply] at here
    split at here
    · cases here
    · exact held.tells other call phase here

theorem next_advances (kept : sys.Kept (conduct source.reckoning) (InStep source)) (told : ToldStep source sys event) :
    Advances sys.world.tables (next opts checksum sys event).world.tables := by
  obtain ⟨_, conducted, held⟩ := kept
  unfold next Crowd.advance
  split
  · split <;> exact .refl _
  · next caller answer =>
    split
    · next call req rest running =>
      obtain ⟨_, here, obeys⟩ := conducted.obeys caller _ _ running
      exact (step_converged obeys.1 (held.sound.agrees _ _ _ here) (held.tells _ _ _ here)
        held.converged (told _ _ _ running).2 rfl).2
    · exact .refl _
    · exact .refl _
  · exact .refl _

theorem Advances.trans (one : Advances first second) (two : Advances second third) : Advances first third := by
  intro mark found
  obtain ⟨later, found', further⟩ := one mark found
  obtain ⟨last, found'', furthest⟩ := two later found'
  exact ⟨last, found'', further.trans furthest⟩

/-- What a search finds: the documents and the checkpoint of the active generation. -/
def exposed (tables : Tables Document) : Option (Record (StoredDocument Document) × Nat) :=
  (tables.generations tables.index.activeGeneration).map fun checkpoint =>
    (tables.documents tables.index.activeGeneration, checkpoint)

theorem exposed_of (found : tables.generations tables.index.activeGeneration = some mark) :
    exposed tables = some (tables.documents tables.index.activeGeneration, mark) := by
  unfold exposed
  rw [found]
  rfl

/-- In an orderly run the documents that a search finds follow the history, and their checkpoint
never goes back. -/
theorem follows_history (opts : RuntimeOptions)
    (checksum : Record (StoredDocument Document) → String) (source : Source Document) (world : World Document)
    (active : (world.tables.generations world.tables.index.activeGeneration).isSome)
    (converged : Converged source world.tables) (earlier later : List (Event Document))
    (each : EachStep (next opts checksum)
      (fun sys event => Orderly sys event ∧ ToldStep source sys event) { world } (earlier ++ later)) :
    ∃ before after, exposed (runFrom (next opts checksum) { world } earlier).world.tables = some before ∧
      exposed (runFrom (next opts checksum) { world } (earlier ++ later)).world.tables = some after ∧
      source.Holds after.1 after.2 ∧ before.2 ≤ after.2 := by
  have keeps := keeps_inStep opts checksum source
  have start : Crowd.Kept (conduct source.reckoning) (InStep source) ({ world } : System Document) :=
    kept_empty ⟨⟨active, by simp, by simp, by simp⟩, converged, by simp⟩
  obtain ⟨first, second⟩ := eachStep_append.mp each
  have kept := keeps.run start first
  have steps := eachStep_of_steps _ (fun _ event held allowed => keeps.advance event held allowed) kept second
  have advances := relates_of_steps (fun sys after : System Document => Advances sys.world.tables after.world.tables)
    (fun _ => .refl _) Advances.trans (fun _ _ held => next_advances held.1 held.2.2) steps
  obtain ⟨_, -, held⟩ := kept
  obtain ⟨mark, found⟩ := Option.isSome_iff_exists.mp held.sound.active
  obtain ⟨_, -, held'⟩ := keeps.run start each
  rw [runFrom_append] at held' ⊢
  obtain ⟨reached, isReached, further⟩ := advances mark found
  exact ⟨_, _, exposed_of found, exposed_of isReached, (held'.converged reached isReached).1, further⟩

end
end Applik8s.Search.Postgres
