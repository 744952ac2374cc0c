import Mathlib.Logic.Equiv.List
import Applik8s.Search.Listings

/-! The calls of a listing, with the steps of the runtimes between them. -/
namespace Applik8s.Search
open Function (update_self update_of_ne)
open Lib List Option Nat

section
variable {σ ℓ : Type}

/-- The moments of further calls: before each one some steps are taken. -/
def moments (next : σ → ℓ → σ) : σ → List (List ℓ × Int) → List (Int × σ)
  | _, [] => []
  | state, (labels, now) :: later =>
    (now, runFrom next state labels) :: moments next (runFrom next state labels) later

def between (visits : List (List ℓ × Int)) : List ℓ := visits.flatMap Prod.fst

theorem moments_related {next : σ → ℓ → σ} (related : σ → σ → Prop) (refl : ∀ state, related state state)
    (trans : ∀ {first second third}, related first second → related second third → related first third)
    (step : ∀ state label, condition state label → related state (next state label))
    (each : EachStep next condition state (between visits)) :
    ∀ moment ∈ moments next state visits, related state moment.2 := by
  induction visits generalizing state with
  | nil => simp [moments]
  | cons visit later ih =>
    obtain ⟨_, _⟩ := visit
    obtain ⟨before, behind⟩ := eachStep_append.mp each
    have reached := relates_of_steps related refl trans step before
    intro moment member
    rcases mem_cons.mp member with rfl | member
    · exact reached
    · exact trans reached (ih behind moment member)

variable {engine : Engine} (provider : Provider engine) (viewOf : σ → Except Failure View)
  (sealing : Seal) (options : SearchOptions)

/-- A call of `search`, in a state. -/
def searchIn (query : Query) (admission : Admission) (now : Int) (state : σ)
    (cursor : Option String) : Except Failure (SearchResult engine) := do
  provider.validate options query admission
  let view ← viewOf state
  search provider sealing options now query admission view cursor

theorem searchIn_ok (done : searchIn provider viewOf sealing options query admission now state cursor = .ok res) :
    ∃ view, viewOf state = .ok view ∧
      search provider sealing options now query admission view cursor = .ok res := by
  obtain ⟨-, -, done⟩ := bind_ok done
  exact bind_ok done

end

namespace Postgres

section
variable (engine : Engine)

mutual

/-- What a `jsonb` column gives back for a value that was written as JSON; `undefined` is not
written. Nothing reads the order of members. -/
def jsonb : Value → Option Value
  | .undefined => none
  | .null => some .null
  | .boolean value => some (.boolean value)
  | .number value => some
    (match value with
    | .finite value => .number (.finite value)
    | .negativeZero => .number (.finite 0)
    | _ => .null)
  | .string text => some (.string text)
  | .date instant => some (.string (engine.toISOString instant))
  | .array items => some (.array (jsonbItems items))
  | .object members => some (.object (jsonbMembers members))

def jsonbItems : List Value → List Value
  | [] => []
  | item :: rest => (jsonb item).getD .null :: jsonbItems rest

def jsonbMembers : List (String × Value) → List (String × Value)
  | [] => []
  | (name, value) :: rest =>
    match jsonb value with
    | some stored => (name, stored) :: jsonbMembers rest
    | none => jsonbMembers rest

end

theorem jsonb_storable (is : jsonb engine value = some stored) : stored.storable = true := by
  cases value with
  | undefined => simp [jsonb] at is
  | number held =>
    simp only [jsonb, some.injEq] at is
    subst is
    cases held <;> rfl
  | _ =>
    simp only [jsonb, some.injEq] at is
    subst is
    rfl

theorem jsonbMembers_storable (members : List (String × Value)) : Storable (jsonbMembers engine members) := by
  induction members with
  | nil =>
    intro member here
    simp [jsonbMembers] at here
  | cons first rest ih =>
    obtain ⟨_, _⟩ := first
    rw [jsonbMembers]
    split
    · next stored is =>
      intro member here
      rcases mem_cons.mp here with rfl | here
      · exact jsonb_storable engine is
      · exact ih member here
    · exact ih

def storedDocuments (documents : Record (StoredDocument Fields)) : Record (StoredDocument Fields) :=
  documents.map fun entry => (entry.1, { entry.2 with document := jsonbMembers engine entry.2.document })

def view (dates : Dates) (tables : Tables Fields) : Except Failure View := do
  let state ← readDetailedState tables
  return {
    generation := state.activeGeneration
    checkpoint := state.checkpoint
    documents := storedDocuments engine (tables.documents state.activeGeneration)
    state := state.state
    sourceHighWatermark := state.sourceHighWatermark
    lastAppliedAt := state.lastAppliedRecordedAt.bind dates.parse }

end

section
variable {options : RuntimeOptions} {checksum : Record (StoredDocument Fields) → String}

/-- The step leaves a generation to the changes that advance it: it does not rebuild it, and does
not delete it. -/
def Spares (generation : String) : Request Fields → Prop
  | .beginRebuild other => other ≠ generation
  | .writePage other _ _ => other ≠ generation
  | .discard other => other ≠ generation
  | .retire other => other ≠ generation
  | _ => True

def Sparing (generation : String) (system : System Fields) : Event Fields → Prop
  | .step caller _ => system.Asks caller (Spares generation)
  | _ => True

/-- A generation stays, and its documents do while its checkpoint does. -/
def Lasts (generation : String) (tables after : Tables Fields) : Prop :=
  ∀ checkpoint, tables.generations generation = some checkpoint →
    ∃ checkpoint', after.generations generation = some checkpoint' ∧ checkpoint ≤ checkpoint' ∧
      (checkpoint' = checkpoint → after.documents generation = tables.documents generation)

variable {generation : String} {tables after : Tables Fields}

theorem Lasts.refl (gen : String) (tables : Tables Fields) : Lasts gen tables tables :=
  fun mark found => ⟨mark, found, le_rfl, fun _ => rfl⟩

theorem Lasts.trans (first : Lasts gen tables after) (second : Lasts gen after later) : Lasts gen tables later := by
  intro mark found
  obtain ⟨middle, reached, upTo, kept⟩ := first mark found
  obtain ⟨last, reached', upTo', kept'⟩ := second middle reached
  refine ⟨last, reached', upTo.trans upTo', fun same => ?_⟩
  rw [kept' (by omega), kept (by omega)]

theorem lasts_of_rows (gens : after.generations gen = tables.generations gen)
    (docs : after.documents gen = tables.documents gen) : Lasts gen tables after :=
  fun mark found => ⟨mark, gens.trans found, le_rfl, fun _ => docs⟩

theorem transaction_lasts (spares : Spares gen req) (effect : Effect tables req value after)
    : Lasts gen tables after := by
  cases effect with
  | @applied other change _ _ _ _ _ found _ sets =>
    by_cases same : gen = other
    · subst same
      intro checkpoint' found'
      cases found.symm.trans found'
      refine ⟨change.commitPosition, by rw [sets.1, update_self], by omega, ?_⟩
      intro still
      omega
    · exact lasts_of_rows (sets.apart same).1 (sets.apart same).2
  | begun _ _ sets => exact lasts_of_rows (sets.apart (Ne.symm spares)).1 (sets.apart (Ne.symm spares)).2
  | written sets => exact lasts_of_rows (sets.apart (Ne.symm spares)).1 (sets.apart (Ne.symm spares)).2
  | cutOver _ _ gens docs => exact lasts_of_rows (by rw [gens]) (by rw [docs])
  | discarded sets => exact lasts_of_rows (sets.apart (Ne.symm spares)).1 (sets.apart (Ne.symm spares)).2
  | retired _ _ sets => exact lasts_of_rows (sets.apart (Ne.symm spares)).1 (sets.apart (Ne.symm spares)).2
  | recordPage => exact lasts_of_rows rfl rfl
  | markLagging => exact lasts_of_rows rfl rfl
  | _ => exact .refl _ _

theorem next_lasts (sparing : Sparing gen sys event) :
    Lasts gen sys.world.tables (next options checksum sys event).world.tables := by
  refine Crowd.advance_world (fun world after : World Fields => Lasts gen world.tables after.tables) (.refl _ _) ?_
  rintro _ answer op req rest rfl running
  have came : (server options checksum).answer req answer sys.world =
      (((server options checksum).answer req answer sys.world).1,
        ((server options checksum).answer req answer sys.world).2) := rfl
  rcases answer_cases came with ⟨_, done, -⟩ | ⟨same, -⟩
  · exact transaction_lasts (sparing op req rest running) (transaction_effect done)
  · rw [same]
    exact .refl _ _

theorem view_ok {engine : Engine} {dates : Dates} {seen : View} (read : view engine dates tables = .ok seen) :
    seen.generation = tables.index.activeGeneration ∧
      tables.generations tables.index.activeGeneration = some seen.checkpoint ∧
      seen.documents = storedDocuments engine (tables.documents tables.index.activeGeneration) := by
  obtain ⟨_, detailed, read⟩ := bind_ok read
  cases read
  unfold readDetailedState at detailed
  split at detailed
  · cases detailed
  next mark found =>
  cases detailed
  exact ⟨rfl, found, rfl⟩

theorem documents_of_lasts {engine : Engine} {dates : Dates} {seen seen' : View}
    (lasts : Lasts tables.index.activeGeneration tables after) (read : view engine dates tables = .ok seen)
    (read' : view engine dates after = .ok seen') (gen : seen'.generation = seen.generation)
    (mark : seen'.checkpoint = seen.checkpoint) : seen'.documents = seen.documents := by
  obtain ⟨active, found, docs⟩ := view_ok read
  obtain ⟨active', found', documents'⟩ := view_ok read'
  obtain ⟨_, is, -, kept⟩ := lasts _ found
  rw [active, active'] at gen
  rw [gen, is] at found'
  rw [docs, documents', gen, kept ((some.inj found').trans mark)]

end
end Postgres

namespace Deterministic

def view (options : RuntimeOptions) (memory : Memory Fields) : Except Failure View := do
  let object ← currentGeneration options memory
  return {
    generation := memory.activeGeneration
    checkpoint := (memory.objects object).checkpoint
    documents := (memory.objects object).documents
    state := memory.projectionState
    sourceHighWatermark := memory.sourceHighWatermark
    lastAppliedAt := memory.lastAppliedRecordedAt }

variable {options : RuntimeOptions} {evidence : Record (StoredDocument Fields) → RebuildValidation}
  {mem after : Memory Fields} {name : String}

/-- The step leaves a generation to the changes that advance it: it does not rebuild it, does not
delete it, and what it writes to it goes on. -/
def Spares (name : String) (memory : Memory Fields) : Request Fields → Prop
  | .allocate other _ => other ≠ name
  | .discard other => other ≠ name
  | .retire other => other ≠ name
  | .load object _ => memory.generations name ≠ some object
  | .write object change _ _ => memory.generations name = some object →
      (memory.objects object).checkpoint < change.commitPosition
  | _ => True

def Sparing (name : String) (system : System Fields) : Event Fields → Prop
  | .step caller _ => system.Asks caller (Spares name system.world)
  | _ => True

/-- Every name is the name of an object that has been made. -/
def Named (memory : Memory Fields) : Prop :=
  ∀ name object, memory.generations name = some object → object < memory.allocated

theorem named_of_forgotten (named : Named mem) (gens : after.generations = Function.update mem.generations name none)
    (allocated : after.allocated = mem.allocated) : Named after := by
  intro other obj is
  rw [gens] at is
  rw [allocated]
  by_cases same : other = name
  · subst same
    rw [update_self] at is
    cases is
  · rw [update_of_ne same] at is
    exact named other obj is

variable {req : Request Fields}

theorem answer_named (named : Named mem) : Named ((server options evidence).answer req answer mem).2 := by
  cases req with
  | allocate gen =>
    intro other obj is
    by_cases same : other = gen
    · subst same
      have : some mem.allocated = some obj := by
        rw [← is]
        exact (update_self other (some mem.allocated) mem.generations).symm
      cases this
      exact lt_succ_self _
    · have : mem.generations other = some obj := by
        rw [← is]
        exact (update_of_ne same _ mem.generations).symm
      exact (named other obj this).trans (lt_succ_self _)
  | discard => exact named_of_forgotten named rfl rfl
  | retire =>
    simp only [server, stretch, retireGeneration]
    split
    · exact named
    · exact named_of_forgotten named rfl rfl
  | notePage =>
    simp only [server, stretch, notePage, markHistoryLoss]
    split <;> exact named
  | noteCatchUp =>
    simp only [server, stretch, noteCatchUp, markHistoryLoss]
    split <;> exact named
  | _ => exact named

theorem run_named (named : Named mem) : Named (runFrom (next options evidence) { world := mem } events).world := by
  have any : EachStep (next options evidence) (fun _ _ => True) { world := mem } events :=
    eachStep_of_always fun _ _ _ => trivial
  refine invariant_of_steps (fun sys : System Fields => Named sys.world) ?_ named any
  intro sys event named _
  exact Crowd.advance_world (fun _ after : Memory Fields => Named after) named fun _ _ _ _ _ _ _ => answer_named named

/-- A name stays with its object, and the documents do while the checkpoint does. -/
def Lasts (name : String) (memory after : Memory Fields) : Prop :=
  ∀ object, memory.generations name = some object → object < memory.allocated →
    after.generations name = some object ∧ object < after.allocated ∧
      (memory.objects object).checkpoint ≤ (after.objects object).checkpoint ∧
      ((after.objects object).checkpoint = (memory.objects object).checkpoint →
        (after.objects object).documents = (memory.objects object).documents)

theorem Lasts.refl (name : String) (mem : Memory Fields) : Lasts name mem mem :=
  fun _ is made => ⟨is, made, le_rfl, fun _ => rfl⟩

theorem Lasts.trans (first : Lasts name mem after) (second : Lasts name after later) : Lasts name mem later := by
  intro obj is made
  obtain ⟨is', made', upTo, kept⟩ := first obj is made
  obtain ⟨is'', made'', upTo', kept'⟩ := second obj is' made'
  refine ⟨is'', made'', upTo.trans upTo', fun same => ?_⟩
  rw [kept' (by omega), kept (by omega)]

theorem lasts_of_objects (gens : after.generations name = mem.generations name)
    (allocated : mem.allocated ≤ after.allocated)
    (objects : ∀ obj, obj < mem.allocated → mem.generations name = some obj →
      after.objects obj = mem.objects obj) : Lasts name mem after := by
  intro obj is made
  rw [gens, objects obj made is]
  exact ⟨is, made.trans_le allocated, le_rfl, fun _ => rfl⟩

theorem answer_lasts (spares : Spares name mem req) :
    Lasts name mem ((server options evidence).answer req answer mem).2 := by
  cases req with
  | allocate =>
    refine lasts_of_objects (update_of_ne (Ne.symm spares) _ _) (le_succ _) ?_
    intro obj made _
    exact update_of_ne (Nat.ne_of_lt made) _ _
  | discard => exact lasts_of_objects (update_of_ne (Ne.symm spares) _ _) le_rfl fun _ _ _ => rfl
  | retire =>
    simp only [server, stretch, retireGeneration]
    split
    · exact .refl _ _
    · exact lasts_of_objects (update_of_ne (Ne.symm spares) _ _) le_rfl fun _ _ _ => rfl
  | load =>
    refine lasts_of_objects rfl le_rfl fun obj _ is => ?_
    refine update_of_ne ?_ _ _
    rintro rfl
    exact spares is
  | write written change hydrated updateActiveState =>
    intro obj is made
    by_cases same : obj = written
    · subst same
      have further : (mem.objects obj).checkpoint < change.commitPosition := spares is
      have reached : (((server options evidence).answer (.write obj change hydrated
          updateActiveState) answer mem).2.objects obj).checkpoint = change.commitPosition := by
        simp [server, stretch, succeeding, write, Memory.withObject]
      refine ⟨is, made, ?_, fun still => ?_⟩
      · rw [reached]
        exact further.le
      · rw [reached] at still
        omega
    · have kept : ((server options evidence).answer (.write written change hydrated
          updateActiveState) answer mem).2.objects obj = mem.objects obj :=
        update_of_ne same _ _
      rw [kept]
      exact ⟨is, made, le_rfl, fun _ => rfl⟩
  | notePage =>
    simp only [server, stretch, notePage, markHistoryLoss]
    split <;> exact lasts_of_objects rfl le_rfl fun _ _ _ => rfl
  | noteCatchUp =>
    simp only [server, stretch, noteCatchUp, markHistoryLoss]
    split <;> exact lasts_of_objects rfl le_rfl fun _ _ _ => rfl
  | _ => exact lasts_of_objects rfl le_rfl fun _ _ _ => rfl

theorem next_lasts (sparing : Sparing name sys event) :
    Lasts name sys.world (next options evidence sys event).world := by
  refine Crowd.advance_world (Lasts name) (.refl _ _) ?_
  rintro _ _ op req rest rfl running
  exact answer_lasts (sparing op req rest running)

theorem view_ok (read : view options mem = .ok seen) :
    ∃ obj, mem.generations mem.activeGeneration = some obj ∧ seen.generation = mem.activeGeneration ∧
      seen.checkpoint = (mem.objects obj).checkpoint ∧ seen.documents = (mem.objects obj).documents := by
  obtain ⟨_, cur, read⟩ := bind_ok read
  cases read
  unfold currentGeneration at cur
  split at cur
  · next found =>
    cases cur
    exact ⟨_, found, rfl, rfl, rfl⟩
  · cases cur

theorem documents_of_lasts (named : Named mem) (lasts : Lasts mem.activeGeneration mem after)
    (read : view options mem = .ok seen) (read' : view options after = .ok seen')
    (gen : seen'.generation = seen.generation) (mark : seen'.checkpoint = seen.checkpoint)
    : seen'.documents = seen.documents := by
  obtain ⟨obj, found, active, reached, docs⟩ := view_ok read
  obtain ⟨_, found', active', reached', documents'⟩ := view_ok read'
  obtain ⟨is, -, -, kept⟩ := lasts obj found (named _ _ found)
  rw [active, active'] at gen
  rw [gen, is] at found'
  cases found'
  rw [docs, documents', kept (by rw [← reached, ← reached', mark])]

end Deterministic

section
variable {σ : Type} {engine : Engine}

/-- A cursor that a call returned is accepted only for the generation and checkpoint, the principal
with its context and authorization, and the query it was returned for. -/
def Bound (provider : Provider engine) (viewOf : σ → Except Failure View) (sealing : Seal)
    (options : SearchOptions) : Prop :=
  ∀ query query' admission admission' now now' state state' cursor encoded result result',
    searchIn provider viewOf sealing options query admission now state cursor = .ok result →
    result.cursor = some encoded →
    searchIn provider viewOf sealing options query' admission' now' state' (some encoded) = .ok result' →
    ∃ view view', viewOf state = .ok view ∧ viewOf state' = .ok view' ∧ SameBindings view view' admission admission' ∧
      (plainWhere query.callerWhere = true → plainWhere query'.callerWhere = true →
        (engine.sha256 (stableJson engine query.value) = engine.sha256 (stableJson engine query'.value) →
          stableJson engine query.value = stableJson engine query'.value) →
        SameQuery engine provider.normalization query query')

theorem bound_of_text {provider : Provider engine} (viewOf : σ → Except Failure View)
    (sealing : Seal) (options : SearchOptions)
    (texts : ∀ query admission, provider.validate options query admission = .ok () →
      validateText query = .ok ()) : Bound provider viewOf sealing options := by
  intro query query' admission admission' now now' state state' cursor encoded res result' issued returned accepted
  obtain ⟨view, read, done⟩ := searchIn_ok provider viewOf sealing options issued
  obtain ⟨view', read', done'⟩ := searchIn_ok provider viewOf sealing options accepted
  obtain ⟨same, hashes⟩ := accepted_bindings done returned done'
  refine ⟨view, view', read, read', same, fun plain plain' collides => ?_⟩
  obtain ⟨_, _, _, _, before⟩ := search_ok done
  obtain ⟨_, _, _, _, after⟩ := search_ok done'
  exact sameQuery_of_text plain plain' (text_of_valid (texts query admission before.valid))
    (text_of_valid (texts query' admission' after.valid)) (collides hashes)

variable {options : SearchOptions}

theorem deterministic_text (valid : (deterministicProvider engine).validate options query admission = .ok ()) :
    validateText query = .ok () := by
  obtain ⟨_, text, -⟩ := bind_ok valid
  exact text

theorem postgres_text (valid : (postgresProvider engine db).validate options query admission = .ok ()) :
    validateText query = .ok () := by
  obtain ⟨_, text, -⟩ := bind_ok valid
  exact text

end

namespace Deterministic

/-- `search`, in a state of the system. -/
def searches (engine : Engine) (sealing : Seal) (options : SearchOptions)
    (runtimeOptions : RuntimeOptions) (query : Query) (admission : Admission) :
    Int → System Fields → Option String → Except Failure (SearchResult engine) :=
  searchIn (deterministicProvider engine) (fun system => view runtimeOptions system.world) sealing
    options query admission

theorem lists_one_state (named : Named first.world)
    (spared : EachStep (next runtimeOptions evidence) (Sparing first.world.activeGeneration) first (between visits))
    (listed : Listed (searches engine sealing options runtimeOptions query admission) none ((now, first) :: moments (next runtimeOptions evidence) first visits) results)
    : ∃ seen, view runtimeOptions first.world = .ok seen ∧
      Lists .deterministic options query (deterministicSatisfies engine options query admission)
        seen.documents results := by
  have lasts := moments_related
    (fun system after : System Fields => Lasts first.world.activeGeneration system.world after.world)
    (fun _ => .refl _ _) (fun one two => one.trans two) (fun _ _ => next_lasts) spared
  obtain ⟨seen, _, read, -, visibleIs, hits, facets⟩ :=
    listed_whole (fun _ _ _ _ => searchIn_ok _ _ _ _) (fun later member seen seen' read read' =>
        documents_of_lasts named (lasts later member) read read') listed
  exact ⟨seen, read, lists_of_visible (.of_eq (deterministic_visible visibleIs)) hits facets⟩

end Deterministic

namespace Postgres

/-- `search`, in a state of the system. -/
def searches (engine : Engine) (database : Database) (sealing : Seal) (options : SearchOptions)
    (runtimeOptions : RuntimeOptions) (query : Query) (admission : Admission) :
    Int → System Fields → Option String → Except Failure (SearchResult engine) :=
  searchIn (postgresProvider engine database)
    (fun system => view engine runtimeOptions.dates system.world.tables) sealing options query
    admission

theorem lists_one_state {engine : Engine} {db : Database} {sealing : Seal}
    {options : SearchOptions} {runtimeOptions : RuntimeOptions}
    {checksum : Record (StoredDocument Fields) → String} {query : Query} {admission : Admission}
    {first : System Fields} {now : Int} {visits : List (List (Event Fields) × Int)}
    {results : List (SearchResult engine)} (finds : FindsMembers db)
    (lists : listsCandidates admission.conditions = true) (lists' : listsCandidates query.callerWhere = true)
    (spared : EachStep (next runtimeOptions checksum)
      (Sparing first.world.tables.index.activeGeneration) first (between visits))
    (listed : Listed (searches engine db sealing options runtimeOptions query admission) none
      ((now, first) :: moments (next runtimeOptions checksum) first visits) results) :
    ∃ seen, view engine runtimeOptions.dates first.world.tables = .ok seen ∧
      Lists (.postgres engine) options query (postgresSatisfies engine db query admission)
        seen.documents results := by
  have lasts := moments_related (fun system after : System Fields =>
      Lasts first.world.tables.index.activeGeneration system.world.tables after.world.tables)
    (fun _ => .refl _ _) (fun one two => one.trans two) (fun _ _ => next_lasts) spared
  obtain ⟨seen, _, read, -, visibleIs, hits, facets⟩ :=
    listed_whole (fun _ _ _ _ => searchIn_ok _ _ _ _) (fun later member seen seen' read read' =>
        documents_of_lasts (lasts later member) read read') listed
  refine ⟨seen, read, lists_of_visible (postgres_visible finds ?_ lists lists' visibleIs) hits facets⟩
  intro entry member
  rw [(view_ok read).2.2] at member
  obtain ⟨held, -, rfl⟩ := mem_map.mp member
  exact jsonbMembers_storable engine held.2.document

end Postgres

def insertionSort {α : Type} (compare : α → α → Ordering) (items : List α) : List α :=
  items.insertionSort fun left right => compare left right ≠ .gt

theorem insertionSort_sorted {α : Type} {compare : α → α → Ordering} {items : List α}
    (consistent : Consistent compare items) :
    (insertionSort compare items).Pairwise fun left right => compare left right ≠ .gt := by
  -- on the items alone the comparison is total and transitive
  let among (left right : {item // item ∈ items}) : Prop := compare left.1 right.1 ≠ .gt
  have total : Std.Total among := by
    refine ⟨fun left right => ?_⟩
    by_cases after : compare left.1 right.1 = .gt
    · right
      change compare right.1 left.1 ≠ .gt
      rw [consistent.swap left.1 left.2 right.1 right.2, after]
      decide
    · exact .inl after
  have trans : IsTrans _ among := ⟨fun a b c => consistent.trans a.1 a.2 b.1 b.2 c.1 c.2⟩
  have mapped := List.map_insertionSort (s := fun left right => compare left right ≠ .gt) among
    Subtype.val items.attach fun _ _ _ _ => Iff.rfl
  rw [List.attach_map_subtype_val] at mapped
  unfold insertionSort
  rw [← mapped]
  exact List.pairwise_map.mpr (List.pairwise_insertionSort among items.attach)

mutual

/-- The JSON text of a tree, in place of its hash; brackets stand for braces. -/
def Stable.text : Stable → String
  | .hole => "undefined"
  | .null => "null"
  | .boolean value => toString value
  | .number value => toString value
  | .string text => text.quote
  | .array items => "[" ++ itemsText items ++ "]"
  | .object members => "(" ++ membersText members ++ ")"

def itemsText : List Stable → String
  | [] => ""
  | item :: rest => item.text ++ "," ++ itemsText rest

def membersText : List (String × Stable) → String
  | [] => ""
  | (name, value) :: rest => name.quote ++ ":" ++ value.text ++ "," ++ membersText rest

end

/-- Numbers by their value, and strings by their characters. -/
def lessThan : Value → Value → Bool
  | .number (.finite left), .number (.finite right) => left < right
  | .string left, .string right => left < right
  | _, _ => false

def plainEngine : Engine where
  lowerCase := id
  localeCompare left right := compare left right
  less := lessThan
  asText
    | .string text => text
    | _ => ""
  toISOString instant :=
    "1970-01-01T00:00:00." ++ (if instant < 10 then "00" else "0") ++ toString instant ++ "Z"
  sort := insertionSort
  sort_perm _ _ := perm_insertionSort _ _
  sort_sorted _ _ := insertionSort_sorted
  sha256 := Stable.text
  Score := Nat
  zero := 0
  add score found _ := score + found
  above left right := right < left

def cursorCodes (cursor : SearchCursor) : List (List Nat) :=
  [cursor.logicalIndex, cursor.indexRevision, cursor.physicalGeneration, cursor.principalId,
      cursor.contextDigest, cursor.authorizationVersion, cursor.queryDigest].map
    (fun text => text.toList.map Char.toNat) ++ [[cursor.checkpoint, cursor.offset]]

def decodeText (codes : List Nat) : String := String.ofList (codes.map Char.ofNat)

theorem decodeText_codes (text : String) : decodeText (text.toList.map Char.toNat) = text := by
  simp [decodeText, Function.comp_def]

def cursorOf : List (List Nat) → Option SearchCursor
  | [logicalIndex, indexRevision, generation, principalId, contextDigest, version, digest, [checkpoint, offset]] =>
    some ⟨decodeText logicalIndex, decodeText indexRevision, decodeText generation, checkpoint,
      decodeText principalId, decodeText contextDigest, decodeText version, decodeText digest, offset⟩
  | _ => none

theorem cursorOf_codes (cursor : SearchCursor) : cursorOf (cursorCodes cursor) = some cursor := by
  simp [cursorCodes, cursorOf, decodeText_codes]

def plainSeal : Seal where
  payload cursor := String.ofList (List.replicate (Encodable.encode (cursorCodes cursor) + 1) 'c')
  parse text := (Encodable.decode (text.toList.length - 1)).bind cursorOf
  signature _ := "s"
  verifies _ signature := signature = "s"
  parse_payload cursor := by simp [cursorOf_codes]
  verifies_signature _ := rfl
  payload_text cursor := by
    constructor
    · intro empty
      have := congrArg String.toList empty
      simp at this
    · simp
  signature_text _ := by decide

def datedDocuments : Record (StoredDocument Fields) :=
  [("a", ⟨[("createdAt", .date 10)], "1"⟩), ("b", ⟨[("createdAt", .date 20)], "1"⟩)]

def datedOptions : SearchOptions where
  logicalIndex := "accounts"
  indexRevision := "1"
  fields := [("createdAt", ⟨.filter, none⟩)]
  sourceProjectionRevision := none
  maximum := 100

/-- What was created behind a date, one document a page. -/
def createdAfter (instant : Int) : Query where
  text := none
  conditions := some [("createdAt", .object [("gt", .date instant)])]
  facets := none
  orderBy := none
  limit := some 1

def anyone : Admission := ⟨"principal", "context", "1", []⟩

namespace Deterministic

def datedMemory : Memory Fields where
  generations name := if name = "initial" then some 0 else none
  objects _ := ⟨datedDocuments, [], 0⟩
  allocated := 1
  activeGeneration := "initial"
  rebuildingGeneration := none
  retentionFloor := 0
  sourceHighWatermark := 0
  lastAppliedRecordedAt := none
  projectionState := .current
  previousGenerations := []

def datedView : View := ⟨"initial", 0, datedDocuments, .current, 0, none⟩

end Deterministic

theorem pageOffset_returned (safe : isSafeInteger offset = true) : pageOffset sealing options view admission queryDigest
      (some (encodeCursor sealing (bindings options view admission queryDigest offset))) = .ok offset := by
  unfold pageOffset whenTruthy
  simp only [truthy, ne_eq, encodeCursor_ne, not_false_eq_true, decide_true, if_true,
    decodeCursor_encodeCursor, bind, Except.bind]
  simp [validateCursor, bindings, safe, bind, Except.bind, pure, Except.pure]

def firstCursor (instant : Int) : String :=
  encodeCursor plainSeal (bindings datedOptions Deterministic.datedView anyone
    (plainEngine.sha256 (stableJson plainEngine (createdAfter instant).value)) 1)

def datedPage (instants : List Int) (cursor : Option String) : SearchResult plainEngine where
  hits := instants.map fun instant => ⟨[("createdAt", .date instant)], none⟩
  facets := []
  cursor
  logicalIndex := "accounts"
  indexRevision := "1"
  physicalGeneration := "initial"
  sourceProjectionRevision :=
    if instants.isEmpty then "" else Stable.text (.array [.string "1"])
  lagChanges := 0
  lagMilliseconds := 0
  lagState := .current

namespace Deterministic

/-- The deterministic runtime is asked for what was created behind a date. -/
def searchDated (instant : Int) : Option String → Except Failure (SearchResult plainEngine) :=
  searches plainEngine plainSeal datedOptions Postgres.firstOptions (createdAfter instant) anyone 0
    { world := datedMemory }

theorem firstCursor_accepted (instant : Int) : pageOffset plainSeal datedOptions datedView anyone
      (plainEngine.sha256 (stableJson plainEngine (createdAfter instant).value)) (some (firstCursor 1)) = .ok 1 :=
  pageOffset_returned rfl

theorem first_page : searchDated 1 none = .ok (datedPage [10] (some (firstCursor 1))) := rfl

theorem second_page : searchDated 1 (some (firstCursor 1)) = .ok (datedPage [20] none) := by
  change Except.bind (pageOffset plainSeal datedOptions datedView anyone
    (plainEngine.sha256 (stableJson plainEngine (createdAfter 1).value)) (some (firstCursor 1))) _ = _
  rw [firstCursor_accepted]
  rfl

end Deterministic
namespace Postgres

def plainDatabase : Database where
  contains document field value := (document.get field).any (·.identical value)
  matchesText document text := document.any fun member => (textValues member.2).any (includes · text)
  ordered := insertionSort fun left right => compare left.1 right.1
  ordered_perm _ := perm_insertionSort _ _

theorem plainDatabase_finds : FindsMembers plainDatabase := by
  intro doc field value scalar found
  simp [plainDatabase, found, identical_self scalar]

def datedWorld : World Fields where
  tables :=
    { index := ⟨"initial", none, .current, 0, 0, none, []⟩
      generations := fun name => if name = "initial" then some 0 else none
      documents := fun name => if name = "initial" then datedDocuments else []
      applied := fun _ => [] }
  caches _ := ⟨"initial", 0, .current, 0, none, [], 0, none⟩

def datedView : View :=
  ⟨"initial", 0, storedDocuments plainEngine datedDocuments, .current, 0, none⟩

/-- A page of the documents, with their dates as they are stored. -/
def storedPage (instants : List Int) (cursor : Option String) : SearchResult plainEngine :=
  { datedPage instants cursor with
    hits := instants.map fun instant => ⟨[("createdAt", .string (plainEngine.toISOString instant))], none⟩ }

/-- The PostgreSQL runtime is asked for what was created behind a date. -/
def searchDated (instant : Int) : Option String → Except Failure (SearchResult plainEngine) :=
  searches plainEngine plainDatabase plainSeal datedOptions firstOptions (createdAfter instant)
    anyone 0 { world := datedWorld }

theorem stored_pages : searchDated 1 none = .ok (storedPage [10] (some (firstCursor 1))) ∧
      searchDated 1 (some (firstCursor 1)) = .ok (storedPage [20] none) := by
  refine ⟨rfl, ?_⟩
  have begins : pageOffset plainSeal datedOptions datedView anyone
      (plainEngine.sha256 (stableJson plainEngine (createdAfter 1).value)) (some (firstCursor 1)) =
      .ok 1 := pageOffset_returned rfl
  change Except.bind (pageOffset plainSeal datedOptions datedView anyone
    (plainEngine.sha256 (stableJson plainEngine (createdAfter 1).value)) (some (firstCursor 1))) _ = _
  rw [begins]
  rfl

end Postgres

end Applik8s.Search
