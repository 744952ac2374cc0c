import Applik8s.Search.Conduct

/-! The generations of a PostgreSQL search index over every run. What each transaction does is
said once; from it, while rebuilds of one generation do not overlap and a rebuild does not fail
behind its cutover, the active generation is there and no rebuild writes to it. -/
namespace Applik8s.Search.Postgres
open Function (update update_apply update_self)
open Lib Option Except
variable {Document : Type} {opts : RuntimeOptions} {tables after' : Tables Document}
  {generation : String}

section
def Sets (tables after : Tables Document) (generation : String) (checkpoint : Option Nat)
    (documents : Record (StoredDocument Document)) : Prop :=
  after.generations = update tables.generations generation checkpoint ∧
    after.documents = update tables.documents generation documents

theorem Sets.apart (sets : Sets tables after' gen mark docs) (differ : other ≠ gen) :
    after'.generations other = tables.generations other ∧ after'.documents other = tables.documents other := by
  rw [sets.1, sets.2, Function.update_of_ne differ, Function.update_of_ne differ]
  exact ⟨rfl, rfl⟩

/-- The index behind a change that was applied to the active generation. -/
def appliedIndex (index : IndexRow) (change : CommittedChange) : IndexRow :=
  { index with
    sourceHighWatermark := max index.sourceHighWatermark change.commitPosition
    lastAppliedRecordedAt := some change.recordedAt
    state := if index.sourceHighWatermark ≤ change.commitPosition then .current else .lagging }

variable {hydrated : List (HydratedDocument Document)}

theorem storeDocuments_ok (done : storeDocuments gen hydrated tables = .ok after') : after' = tables.withDocuments gen
      (replaceDocuments (tables.documents gen) hydrated) := by
  unfold storeDocuments at done
  split at done
  · cases done
  · exact (ok.inj done).symm

/-- What a transaction that commits does, with what it has found. -/
inductive Effect (tables : Tables Document) : (request : Request Document) → request.Result → Tables Document → Prop
  | readState {state : ProjectionState} : Effect tables .readState state tables
  | recordPage {page : ChangePage} {checkpoint : Nat} :
    Effect tables (.recordPage page checkpoint) () (recordPage page checkpoint tables)
  | markLagging : Effect tables .markLagging () (markLagging tables)
  | known {generation : String} {change : CommittedChange} {hydrated : List (HydratedDocument Document)}
    (active : Bool) (checkpoint : Nat) (found : tables.generations generation = some checkpoint)
    (known : change.commitPosition ≤ checkpoint) : Effect tables (.applyChange generation change hydrated active) false tables
  | applied {generation : String} {change : CommittedChange} {hydrated : List (HydratedDocument Document)}
    {after : Tables Document} (active : Bool) (checkpoint : Nat) (admitted : active = true →
      tables.index.activeGeneration = generation ∧ tables.index.state ≠ .rebuildRequired)
    (found : tables.generations generation = some checkpoint) (contiguous : change.commitPosition = checkpoint + 1)
    (sets : Sets tables after generation (some change.commitPosition)
      (replaceDocuments (tables.documents generation) hydrated))
    (index : after.index = if active then appliedIndex tables.index change else tables.index) :
    Effect tables (.applyChange generation change hydrated active) true after
  | begun {generation : String} {after : Tables Document} (inactive : tables.index.activeGeneration ≠ generation)
    (free : ∀ rebuilding, tables.index.rebuildingGeneration = some rebuilding → rebuilding = "" ∨ rebuilding = generation)
    (sets : Sets tables after generation (some 0) [])
    (index : after.index = { tables.index with rebuildingGeneration := some generation }) :
    Effect tables (.beginRebuild generation) () after
  | written {generation : String} {items : List (HydratedDocument Document)} {frontier : Nat} {after : Tables Document}
    (sets : Sets tables after generation ((tables.generations generation).map fun _ => frontier)
      (replaceDocuments (tables.documents generation) items))
    (index : after.index = tables.index) : Effect tables (.writePage generation items frontier) () after
  | readAggregate {generation : String} {aggregate : Nat × String} :
    Effect tables (.readAggregate generation) aggregate tables
  | readSample {generation : String} {sample : List String} : Effect tables (.readSample generation) sample tables
  | cutOver {generation previous : String} {rebuildingCheckpoint : Nat} {after : Tables Document}
    (own : tables.index.rebuildingGeneration.getD "null" = generation)
    (caughtUp : tables.index.sourceHighWatermark ≤ rebuildingCheckpoint)
    (generations : after.generations = tables.generations) (documents : after.documents = tables.documents)
    (index : after.index = { tables.index with
      activeGeneration := generation
      rebuildingGeneration := none
      state := .current
      previousGenerations := after.index.previousGenerations }) :
    Effect tables (.cutOver generation rebuildingCheckpoint) previous after
  | discarded {generation : String} (sets : Sets tables (discard generation tables) generation none []) :
    Effect tables (.discard generation) () (discard generation tables)
  | retired {generation : String} {after : Tables Document} (inactive : tables.index.activeGeneration ≠ generation)
    (apart : tables.index.rebuildingGeneration.getD "null" ≠ generation) (sets : Sets tables after generation none [])
    (index : after.index = { tables.index with previousGenerations := after.index.previousGenerations }) :
    Effect tables (.retire generation) () after

theorem applyChange_effect (done : applyChange opts gen change hydrated active tables = .ok (applied, after')) :
    Effect tables (.applyChange gen change hydrated active) applied after' := by
  unfold applyChange at done
  simp only [bind, Except.bind, pure, Except.pure] at done
  split at done
  · split at done <;> cases done
  next fresh =>
  split at done
  · cases done
  next still =>
  have admitted : active = true → tables.index.activeGeneration = gen ∧
      tables.index.state ≠ .rebuildRequired := by
    rintro rfl
    simp only [Bool.true_and, decide_eq_true_eq, not_not] at fresh still
    exact ⟨still, fresh⟩
  split at done
  · next mark found =>
    split at done
    · next known =>
      split at done
      · cases ok.inj done
        exact .known active mark found known
      split at done
      · cases ok.inj done
        exact .known active mark found known
      · cases done
    split at done
    · cases done
    next contiguous =>
    rw [not_not] at contiguous
    split at done
    · cases done
    next stored storing =>
    obtain rfl := storeDocuments_ok storing
    split at done
    · cases done
    split at done <;> obtain ⟨rfl, rfl⟩ := Prod.mk.inj (ok.inj done)
    · next isActive =>
      exact .applied active mark admitted found contiguous ⟨rfl, rfl⟩ (by rw [if_pos isActive]; rfl)
    · next inactive =>
      exact .applied active mark admitted found contiguous ⟨rfl, rfl⟩ (by rw [if_neg inactive]; rfl)
  · cases done

theorem beginRebuild_effect (done : beginRebuild opts gen tables = .ok after') :
    Effect tables (.beginRebuild gen) () after' := by
  unfold beginRebuild at done
  simp only [bind, Except.bind, pure, Except.pure] at done
  split at done
  · cases done
  next inactive =>
  split at done
  · next rebuilding found =>
    split at done
    · cases done
    next own =>
    cases done
    refine .begun inactive ?_ ⟨rfl, rfl⟩ rfl
    intro other same
    cases found.symm.trans same
    simpa [or_iff_not_imp_left] using own
  · next found =>
    cases done
    exact .begun inactive (by simp [found]) ⟨rfl, rfl⟩ rfl

theorem writePage_effect (done : writePage gen items edge tables = .ok after') :
    Effect tables (.writePage gen items edge) () after' := by
  unfold writePage at done
  simp only [bind, Except.bind, pure, Except.pure] at done
  split at done
  · cases done
  next stored storing =>
  obtain rfl := storeDocuments_ok storing
  split at done
  · next mark found =>
    cases done
    have found : tables.generations gen = some mark := found
    exact .written ⟨by rw [found]; rfl, rfl⟩ rfl
  next missing =>
  cases done
  have missing : tables.generations gen = none := missing
  refine .written ⟨?_, rfl⟩ rfl
  rw [missing, map_none, ← missing, Function.update_eq_self]
  rfl

theorem cutOver_effect (done : cutOver opts gen rebuildingCheckpoint tables = .ok (prev, after')) :
    Effect tables (.cutOver gen rebuildingCheckpoint) prev after' := by
  unfold cutOver at done
  split at done
  · cases done
  next own =>
  split at done
  · cases done
  next caughtUp =>
  cases ok.inj done
  exact .cutOver (not_not.mp own) (not_lt.mp caughtUp) rfl rfl rfl

theorem retireGeneration_effect (done : retireGeneration opts gen tables = .ok after') :
    Effect tables (.retire gen) () after' := by
  unfold retireGeneration at done
  split at done
  · cases done
  next inactive =>
  split at done
  · cases done
  next apart =>
  cases done
  exact .retired inactive apart ⟨rfl, rfl⟩ rfl

theorem silent_ok (done : silent out = .ok (value, after')) : out = .ok after' := by
  cases out with
  | error => cases done
  | ok after => exact congrArg Except.ok (Prod.mk.inj (ok.inj done)).2

theorem transaction_effect (done : transaction opts checksum tables request = some (.ok (value, after'))) :
    Effect tables request value after' := by
  cases request with
  | readState =>
    have read : (readDetailedState tables).map (·, tables) = .ok (value, after') := some.inj done
    cases state : readDetailedState tables with
    | error => simp [state, Except.map] at read
    | ok =>
      simp only [state, Except.map, ok.injEq, Prod.mk.injEq] at read
      rw [← read.2]
      exact .readState
  | applyChange => exact applyChange_effect (some.inj done)
  | beginRebuild => exact beginRebuild_effect (silent_ok (some.inj done))
  | writePage => exact writePage_effect (silent_ok (some.inj done))
  | cutOver => exact cutOver_effect (some.inj done)
  | retire => exact retireGeneration_effect (silent_ok (some.inj done))
  | recordPage | markLagging | readAggregate | readSample | discard =>
    obtain ⟨-, rfl⟩ := Prod.mk.inj (ok.inj (some.inj done))
    first | exact .recordPage | exact .markLagging | exact .readAggregate | exact .readSample | exact .discarded ⟨rfl, rfl⟩
  | _ => cases done

theorem transact_cases {α : Type} {fate : Fate} {out : Except Failure (α × Tables Document)}
    {reply : Except Failure α} (came : transact fate tables out = (reply, after')) :
    (∃ value, out = .ok (value, after') ∧ ((fate = .answered ∧ reply = .ok value) ∨
        (fate = .unacknowledged ∧ reply = .error .outside))) ∨ (after' = tables ∧ ∃ err, reply = .error err ∧
      (fate ≠ .answered ∨ out = .error err)) := by
  unfold transact at came
  split at came
  · cases came
    exact .inr ⟨rfl, _, rfl, .inl (by simp)⟩
  · next err _ =>
    cases came
    exact .inr ⟨rfl, err, rfl, .inr rfl⟩
  · next value after =>
    cases came
    exact .inl ⟨value, rfl, .inl ⟨rfl, rfl⟩⟩
  · next value after =>
    cases came
    exact .inl ⟨value, rfl, .inr ⟨rfl, rfl⟩⟩

end

section
def Phase.own : Phase Document → Option String
  | .outside own => own
  | .building generation _ _ _ => some generation
  | .failing generation => some generation
  | .published generation => some generation
  | .withdrawn generation => some generation

/-- The generation is claimed by a rebuild: it is marked, and not the active one. -/
def Claimed (tables : Tables Document) (generation : String) : Prop :=
  tables.index.rebuildingGeneration = some generation ∧ generation ≠ "" ∧ tables.index.activeGeneration ≠ generation

def Agrees (tables : Tables Document) : Phase Document → Prop
  | .building generation checkpoint documents _ => Claimed tables generation ∧
      tables.generations generation = some checkpoint ∧ tables.documents generation = documents
  | .failing generation => Claimed tables generation
  | .withdrawn generation => tables.index.activeGeneration ≠ generation
  | _ => True

def Call.rebuilds (call : Call) (generation : String) : Prop :=
  ∃ rebuildOptions, call.operation = .rebuild rebuildOptions ∧ rebuildOptions.generation = generation

/-- The active generation is there, the tables agree with every call, and no two calls rebuild one
generation. -/
structure Sound (world : World Document) (phases : Nat → Option (Call × Phase Document)) : Prop where
  active : (world.tables.generations world.tables.index.activeGeneration).isSome
  agrees : ∀ caller call phase, phases caller = some (call, phase) → Agrees world.tables phase
  owns : ∀ caller call phase generation, phases caller = some (call, phase) →
    (phase.own = some generation ↔ call.rebuilds generation)
  apart : ∀ caller other call call' phase phase' generation, phases caller = some (call, phase) →
    phases other = some (call', phase') → call.rebuilds generation → call'.rebuilds generation →
    caller = other

/-- Rebuilds of one generation do not overlap, and none fails while its generation is active. -/
def Orderly (system : System Document) : Event Document → Prop
  | .start _ call => ∀ other call' program generation,
      system.callers other = some ⟨call', program⟩ → call.rebuilds generation →
      ¬ call'.rebuilds generation
  | .step caller answer => ∀ call request next generation,
      system.callers caller = some ⟨call, .call request next⟩ → call.rebuilds generation →
      (system.world.tables.index.activeGeneration = generation → answer.fate = .answered) ∧
        ∀ rebuildingCheckpoint, request = .cutOver generation rebuildingCheckpoint → answer.fate ≠ .unacknowledged
  | .stop _ => True

def Spared (tables after : Tables Document) (other : String) : Prop :=
  (tables.index.activeGeneration ≠ other → after.index.activeGeneration ≠ other) ∧
    (Claimed tables other → Claimed after other ∧ after.generations other = tables.generations other ∧
      after.documents other = tables.documents other)

theorem Spared.refl (tables : Tables Document) (other : String) : Spared tables tables other :=
  ⟨id, fun claimed => ⟨claimed, rfl, rfl⟩⟩

theorem spared_of_rows (active : after'.index.activeGeneration = tables.index.activeGeneration)
    (rebuilding : Claimed tables other → after'.index.rebuildingGeneration = some other)
    (rows : Claimed tables other → after'.generations other = tables.generations other ∧ after'.documents other = tables.documents other)
    : Spared tables after' other := by
  refine ⟨by simp [active], fun claimed => ⟨⟨rebuilding claimed, claimed.2.1, ?_⟩, rows claimed⟩⟩
  rw [active]
  exact claimed.2.2

variable {reckoning : Reckoning Document} {phase : Phase Document}
  {checksum : Record (StoredDocument Document) → String} {request : Request Document} {value : request.Result}

theorem transaction_spares (permitted : permits reckoning phase request) (foreign : phase.own ≠ some other)
    (effect : Effect tables request value after') : Spared tables after' other := by
  cases effect with
  | recordPage => exact spared_of_rows rfl And.left fun _ => ⟨rfl, rfl⟩
  | markLagging => exact spared_of_rows rfl And.left fun _ => ⟨rfl, rfl⟩
  | applied active mark admitted _ _ sets index =>
    have same : after'.index.activeGeneration = tables.index.activeGeneration ∧
        after'.index.rebuildingGeneration = tables.index.rebuildingGeneration := by
      rw [index]
      split <;> exact ⟨rfl, rfl⟩
    refine spared_of_rows same.1 (by rw [same.2]; exact And.left) fun claimed => sets.apart ?_
    rintro rfl
    cases active with
    | true => exact claimed.2.2 (admitted rfl).1
    | false =>
      obtain ⟨-, mark, docs, rfl⟩ := permitted
      exact foreign rfl
  | @begun gen _ inactive free sets index =>
    have differ : other ≠ gen := by
      rintro rfl
      obtain ⟨rfl, -⟩ := permitted
      exact foreign rfl
    refine spared_of_rows (by rw [index]) ?_ fun _ => sets.apart differ
    intro claimed
    rcases free other claimed.1 with empty | same
    · exact absurd empty claimed.2.1
    · exact absurd same differ
  | written sets index =>
    refine spared_of_rows (by rw [index]) (by rw [index]; exact And.left) fun _ => sets.apart ?_
    rintro rfl
    obtain ⟨mark, docs, _, _, _, rfl, -⟩ := permitted
    exact foreign rfl
  | @cutOver gen _ _ _ own _ _ docs index =>
    have differ : other ≠ gen := by
      rintro rfl
      obtain ⟨mark, docs, rfl, -⟩ := permitted
      exact foreign rfl
    refine ⟨fun _ => by rw [index]; exact differ.symm, fun claimed => ?_⟩
    rw [claimed.1] at own
    exact absurd own differ
  | @discarded gen sets =>
    have differ : other ≠ gen := by
      rintro rfl
      rcases permitted with ⟨_, _, _, rfl⟩ | rfl | rfl <;> exact foreign rfl
    refine spared_of_rows rfl ?_ fun _ => sets.apart differ
    intro claimed
    simp [discard, claimed.1, differ]
  | retired inactive apart sets index =>
    refine spared_of_rows (by rw [index]) (by rw [index]; exact And.left) fun claimed => sets.apart ?_
    rintro rfl
    exact apart (by rw [claimed.1]; rfl)
  | _ => exact .refl _ _

theorem answer_tables (opts : RuntimeOptions) (checksum : Record (StoredDocument Document) → String)
    (request : Request Document) (answer : Answer Document) (world : World Document) :
    match transaction opts checksum world.tables request with
    | some out => transact answer.fate world.tables out =
        (((server opts checksum).answer request answer world).1,
          ((server opts checksum).answer request answer world).2.tables)
    | none => ((server opts checksum).answer request answer world).2.tables = world.tables := by
  cases request <;> rfl

variable {answer : Answer Document} {world world' : World Document} {reply : Except Failure request.Result}

theorem answer_cases (came : (server opts checksum).answer request answer world = (reply, world')) :
    (∃ value, transaction opts checksum world.tables request = some (.ok (value, world'.tables)) ∧
      ((answer.fate = .answered ∧ reply = .ok value) ∨ (answer.fate = .unacknowledged ∧ reply = .error .outside))) ∨
    (world'.tables = world.tables ∧ ∀ out, transaction opts checksum world.tables request = some out →
        ∃ err, reply = .error err ∧ (answer.fate ≠ .answered ∨ out = .error err)) := by
  have carried := answer_tables opts checksum request answer world
  rw [came] at carried
  cases found : transaction opts checksum world.tables request with
  | none =>
    rw [found] at carried
    exact .inr ⟨carried, by simp⟩
  | some =>
    rw [found] at carried
    rcases transact_cases carried with ⟨value, rfl, ended⟩ | ⟨same, err, failed, why⟩
    · exact .inl ⟨value, rfl, ended⟩
    refine .inr ⟨same, fun other isOutcome => ?_⟩
    cases isOutcome
    exact ⟨err, failed, why⟩

theorem Claimed.of_index {before after : Tables Document} (claimed : Claimed before gen)
    (active : after.index.activeGeneration = before.index.activeGeneration)
    (rebuilding : after.index.rebuildingGeneration = before.index.rebuildingGeneration) : Claimed after gen := by
  unfold Claimed
  rw [active, rebuilding]
  exact claimed

theorem Sets.active (sets : Sets tables after' gen mark docs)
    (active : (tables.generations tables.index.activeGeneration).isSome)
    (same : after'.index.activeGeneration = tables.index.activeGeneration)
    (differ : tables.index.activeGeneration ≠ gen) : (after'.generations after'.index.activeGeneration).isSome := by
  rw [same, (sets.apart differ).1]
  exact active

theorem inactive_of_discard (permitted : permits reckoning phase (.discard gen))
    (agrees : Agrees tables phase) : tables.index.activeGeneration ≠ gen := by
  rcases permitted with ⟨_, _, _, rfl⟩ | rfl | rfl
  · exact agrees.1.2.2
  · exact agrees.2.2
  · exact agrees

theorem transaction_agrees (permitted : permits reckoning phase request) (agrees : Agrees tables phase)
    (active : (tables.generations tables.index.activeGeneration).isSome) (effect : Effect tables request value after') :
    (after'.generations after'.index.activeGeneration).isSome ∧ Agrees after' (after phase request (.ok value)) ∧
      ((∀ generation rebuildingCheckpoint, request ≠ .cutOver generation rebuildingCheckpoint) →
        ∀ err, request ≠ .readState → Agrees after' (after phase request (.error err))) := by
  cases effect with
  | readState => exact ⟨active, agrees, fun _ _ apart => absurd rfl apart⟩
  | @recordPage page mark =>
    have kept : Agrees (recordPage page mark tables) phase := by
      cases phase <;> exact agrees
    exact ⟨active, kept, fun _ _ _ => kept⟩
  | markLagging =>
    have kept : Agrees (markLagging tables) phase := by
      cases phase <;> exact agrees
    exact ⟨active, kept, fun _ _ _ => kept⟩
  | known updates _ found known =>
    cases updates with
    | true =>
      obtain ⟨-, rfl⟩ := permitted
      exact ⟨active, trivial, fun _ _ _ => trivial⟩
    | false =>
      obtain ⟨-, stored, docs, rfl⟩ := permitted
      obtain ⟨claimed, rows, rfl⟩ := agrees
      cases found.symm.trans rows
      refine ⟨active, ⟨claimed, ?_, rfl⟩, fun _ _ _ => claimed⟩
      rw [max_eq_left known]
      exact rows
  | applied updates _ admitted _ _ sets index =>
    cases updates with
    | true =>
      obtain ⟨-, rfl⟩ := permitted
      refine ⟨?_, trivial, fun _ _ _ => trivial⟩
      rw [index]
      simp only [if_true, appliedIndex, (admitted rfl).1, sets.1, update_self]
      rfl
    | false =>
      obtain ⟨-, _, docs, rfl⟩ := permitted
      obtain ⟨claimed, rows, rfl⟩ := agrees
      have index : after'.index = tables.index := index
      have claimed' := claimed.of_index (congrArg _ index) (congrArg _ index)
      refine ⟨sets.active active (congrArg _ index) claimed.2.2, ⟨claimed', ?_, ?_⟩, fun _ _ _ => claimed'⟩
      · rw [sets.1, update_self]
      · rw [sets.2, update_self]
  | begun inactive free sets index =>
    obtain ⟨rfl, named⟩ := permitted
    refine ⟨sets.active active (by rw [index]) inactive, ⟨⟨?_, named, ?_⟩, ?_, ?_⟩, fun _ _ _ => trivial⟩
    · rw [index]
    · rw [index]
      exact inactive
    · rw [sets.1, update_self]
    · rw [sets.2, update_self]
  | written sets index =>
    obtain ⟨mark, docs, _, _, _, rfl, rfl, rfl⟩ := permitted
    obtain ⟨claimed, rows, rfl⟩ := agrees
    have claimed' := claimed.of_index (congrArg _ index) (congrArg _ index)
    refine ⟨sets.active active (congrArg _ index) claimed.2.2, ⟨claimed', ?_, ?_⟩, fun _ _ _ => claimed'⟩
    · rw [sets.1, update_self, rows]
      rfl
    · rw [sets.2, update_self]
  | cutOver _ _ gens docs index =>
    obtain ⟨_, _, rfl, -⟩ := permitted
    obtain ⟨-, rows, -⟩ := agrees
    refine ⟨?_, trivial, fun other => absurd rfl (other _ _)⟩
    rw [index, gens, rows]
    rfl
  | discarded sets =>
    exact ⟨sets.active active rfl (inactive_of_discard permitted agrees), trivial, fun _ _ _ => trivial⟩
  | retired inactive apart sets index =>
    obtain rfl := permitted
    exact ⟨sets.active active (by rw [index]) inactive, trivial, fun _ _ _ => trivial⟩
  | _ => exact ⟨active, agrees, fun _ _ _ => agrees⟩

/-- Where nothing is written, a failed transaction leaves its generation to be given up, and other
answers leave the rows of a phase as they were. -/
theorem agrees_of_unwritten (opts : RuntimeOptions) (checksum : Record (StoredDocument Document) → String)
        (permitted : permits reckoning phase request)
    (agrees : Agrees tables phase)
    (failed : (transaction opts checksum tables request).isSome → ∃ err, reply = .error err)
    (readable : ∀ generation, request = .readState → phase = .published generation →
      tables.index.activeGeneration ≠ generation) : Agrees tables (after phase request reply) := by
  cases request with
  | readState =>
    obtain ⟨err, rfl⟩ := failed rfl
    cases phase with
    | published generation => exact readable generation rfl rfl
    | _ => exact agrees
  | openSnapshot =>
    cases reply with
    | error => exact agrees
    | ok opened =>
      obtain ⟨generation, rfl⟩ := permitted
      exact agrees
  | readSnapshot =>
    cases reply with
    | error => exact agrees
    | ok page =>
      obtain ⟨_, mark, docs, opened, rfl, -⟩ := permitted
      exact agrees
  | applyChange _ _ _ active =>
    obtain ⟨err, rfl⟩ := failed rfl
    cases active with
    | true => exact agrees
    | false =>
      obtain ⟨-, mark, docs, rfl⟩ := permitted
      exact agrees.1
  | beginRebuild =>
    obtain ⟨err, rfl⟩ := failed rfl
    trivial
  | writePage =>
    obtain ⟨err, rfl⟩ := failed rfl
    obtain ⟨mark, docs, _, _, _, rfl, -⟩ := permitted
    exact agrees.1
  | cutOver =>
    obtain ⟨_, rfl⟩ := failed rfl
    obtain ⟨_, _, rfl, -⟩ := permitted
    exact agrees.1
  | discard => trivial
  | _ => exact agrees

theorem own_after (reply : Except Failure req.Result)
    (permitted : permits reckoning phase req) : (after phase req reply).own = phase.own := by
  cases req with
  | readState =>
    cases reply with
    | ok state => rfl
    | error => cases phase <;> rfl
  | openSnapshot =>
    cases reply with
    | error => rfl
    | ok opened =>
      obtain ⟨gen, rfl⟩ := permitted
      rfl
  | readSnapshot =>
    cases reply with
    | error => rfl
    | ok page =>
      obtain ⟨_, mark, docs, opened, rfl, -⟩ := permitted
      rfl
  | applyChange _ _ _ active =>
    cases active with
    | true => rfl
    | false =>
      obtain ⟨-, mark, docs, rfl⟩ := permitted
      cases reply with
      | error => rfl
      | ok applied => cases applied <;> rfl
  | beginRebuild =>
    obtain ⟨rfl, -⟩ := permitted
    cases reply <;> rfl
  | writePage =>
    obtain ⟨mark, docs, _, _, _, rfl, -⟩ := permitted
    cases reply <;> rfl
  | cutOver =>
    obtain ⟨mark, docs, rfl, -⟩ := permitted
    cases reply <;> rfl
  | discard => rcases permitted with ⟨_, _, _, rfl⟩ | rfl | rfl <;> rfl
  | _ => rfl

/-- One step keeps the active generation there and takes its call to a phase the tables agree
with. -/
theorem step_agrees (permitted : permits reckoning phase request) (agrees : Agrees world.tables phase)
    (active : (world.tables.generations world.tables.index.activeGeneration).isSome)
    (unfailing : ∀ generation, phase.own = some generation →
      (world.tables.index.activeGeneration = generation → answer.fate = .answered) ∧
        ∀ rebuildingCheckpoint, request = .cutOver generation rebuildingCheckpoint → answer.fate ≠ .unacknowledged)
    (came : (server opts checksum).answer request answer world = (reply, world')) :
    (world'.tables.generations world'.tables.index.activeGeneration).isSome ∧
      Agrees world'.tables (after phase request reply) := by
  -- a read that fails was not answered, for the active generation is there
  have readable : request = .readState → (∃ err, reply = .error err) →
      world'.tables = world.tables → ∀ generation, phase = .published generation →
        world.tables.index.activeGeneration ≠ generation := by
    rintro rfl ⟨err, rfl⟩ same generation rfl isActive
    have answered := (unfailing generation rfl).1 isActive
    rcases answer_cases came with ⟨value, -, ⟨-, failed⟩ | ⟨lost, -⟩⟩ | ⟨-, failed⟩
    · cases failed
    · rw [answered] at lost
      cases lost
    obtain ⟨_, -, unanswered | missing⟩ := failed _ rfl
    · exact unanswered answered
    · obtain ⟨mark, found⟩ := isSome_iff_exists.mp active
      simp [readDetailedState, found, Except.map] at missing
  rcases answer_cases came with ⟨_, done, ended⟩ | ⟨same, failed⟩
  · obtain ⟨there, answered, unanswered⟩ := transaction_agrees permitted agrees active (transaction_effect done)
    refine ⟨there, ?_⟩
    rcases ended with ⟨-, rfl⟩ | ⟨lost, rfl⟩
    · exact answered
    by_cases read : request = .readState
    · have same : world'.tables = world.tables := by
        subst read
        generalize world'.tables = after at done
        cases transaction_effect done
        rfl
      rw [same]
      exact agrees_of_unwritten opts checksum permitted agrees (fun _ => ⟨_, rfl⟩) fun generation _ published =>
          readable read ⟨_, rfl⟩ same generation published
    · refine unanswered ?_ _ read
      rintro generation rebuildingCheckpoint rfl
      obtain ⟨_, _, rfl, -⟩ := permitted
      exact (unfailing generation rfl).2 rebuildingCheckpoint rfl lost
  · rw [same]
    refine ⟨active, agrees_of_unwritten opts checksum permitted agrees ?_ ?_⟩
    · intro isTransaction
      obtain ⟨out, found⟩ := isSome_iff_exists.mp isTransaction
      obtain ⟨err, failed, -⟩ := failed out found
      exact ⟨err, failed⟩
    intro generation read published
    have isTransaction : (transaction opts checksum world.tables request).isSome := by
      rw [read]
      rfl
    obtain ⟨out, found⟩ := isSome_iff_exists.mp isTransaction
    obtain ⟨err, failed, -⟩ := failed out found
    exact readable read ⟨err, failed⟩ same generation published

def SameRows (tables after : Tables Document) (generation : String) : Prop :=
  after.generations generation = tables.generations generation ∧
    after.documents generation = tables.documents generation

theorem transaction_sameRows (permitted : permits reckoning phase request) (agrees : Agrees tables phase)
    (owned : phase.own ≠ none) (effect : Effect tables request value after') :
    SameRows tables after' tables.index.activeGeneration := by
  cases effect with
  | applied updates _ _ _ _ sets =>
    cases updates with
    | true =>
      obtain ⟨-, rfl⟩ := permitted
      exact absurd rfl owned
    | false =>
      obtain ⟨-, _, docs, rfl⟩ := permitted
      exact sets.apart agrees.1.2.2
  | begun inactive _ sets => exact sets.apart inactive
  | written sets index =>
    obtain ⟨_, docs, _, _, _, rfl, -⟩ := permitted
    exact sets.apart agrees.1.2.2
  | cutOver _ _ gens docs => exact ⟨congrFun gens _, congrFun docs _⟩
  | discarded sets => exact sets.apart (inactive_of_discard permitted agrees)
  | retired =>
    obtain rfl := permitted
    exact absurd rfl owned
  | _ => exact ⟨rfl, rfl⟩

section
variable {reckoning : Reckoning Document} {checksum : Record (StoredDocument Document) → String}
  {system : System Document} {phases : Nat → Option (Call × Phase Document)} {caller : Nat}
  {answer : Answer Document} {call : Call} {phase : Phase Document} {request : Request Document}
  {rest : (Steps Document).Reply request → SearchProgram Document Unit}

theorem Agrees.spared {after : Tables Document} (agrees : Agrees before phase)
    (spared : ∀ gen, phase.own = some gen → Spared before after gen) : Agrees after phase := by
  cases phase with
  | building gen _ docs =>
    obtain ⟨claimed, rows, docs⟩ := agrees
    obtain ⟨claimed', rows', documents'⟩ := (spared gen rfl).2 claimed
    exact ⟨claimed', rows'.trans rows, documents'.trans docs⟩
  | failing gen => exact ((spared gen rfl).2 agrees).1
  | withdrawn gen => exact (spared gen rfl).1 agrees
  | outside own => trivial
  | published => trivial

theorem step_spares {reply : Except Failure request.Result} (permitted : permits reckoning phase request)
    (came : (server opts checksum).answer request answer world = (reply, world')) (foreign : phase.own ≠ some other)
    : Spared world.tables world'.tables other := by
  rcases answer_cases came with ⟨_, done, -⟩ | ⟨same, -⟩
  · exact transaction_spares permitted foreign (transaction_effect done)
  · rw [same]
    exact .refl _ _

theorem own_initial (call : Call) (gen : String) :
    (call.initial : Phase Document).own = some gen ↔ call.rebuilds gen := by
  unfold Call.initial Call.rebuilds
  split
  · next rebuildOptions isRebuild =>
    constructor
    · intro own
      exact ⟨rebuildOptions, isRebuild, some.inj own⟩
    rintro ⟨_, isOther, rfl⟩
    rw [isRebuild] at isOther
    rw [Operation.rebuild.inj isOther]
    rfl
  · next isOther =>
    constructor
    · intro own
      cases own
    · rintro ⟨rebuildOptions, isRebuild, -⟩
      exact absurd isRebuild (isOther rebuildOptions)

theorem Sound.start (sound : Sound system.world phases) (conducted : Conducted (conduct reckoning) system phases)
    (orderly : Orderly system (.start caller call)) :
    Sound system.world (update phases caller (some (call, call.initial))) := by
  have under : ∀ other call' phase', phases other = some (call', phase') →
      ∃ prog, system.callers other = some ⟨call', prog⟩ := by
    intro other call' phase' here
    cases present : system.callers other with
    | none => rw [(conducted.present other).mp present] at here; cases here
    | some running =>
      obtain ⟨op, prog⟩ := running
      obtain ⟨_, inPhase, -⟩ := conducted.obeys other op prog present
      rw [inPhase] at here
      exact ⟨prog, by rw [(Prod.mk.inj (some.inj here)).1]⟩
  have foreign : ∀ other call' phase' gen, phases other = some (call', phase') →
      call.rebuilds gen → ¬ call'.rebuilds gen := by
    intro other call' phase' gen here own
    obtain ⟨prog, running⟩ := under other call' phase' here
    exact orderly other call' prog gen running own
  refine ⟨sound.active, ?_, ?_, ?_⟩
  · intro other call' phase' here
    rw [update_apply] at here
    split at here
    · cases some.inj here
      unfold Call.initial
      split <;> trivial
    · exact sound.agrees other call' phase' here
  · intro other call' phase' gen here
    rw [update_apply] at here
    split at here
    · cases some.inj here
      exact own_initial call gen
    · exact sound.owns other call' phase' gen here
  · intro first second call₁ call₂ phase₁ phase₂ gen here there own₁ own₂
    rw [update_apply] at here there
    split at here
    · next isFirst =>
      split at there
      · next isSecond => exact isFirst.trans isSecond.symm
      · obtain ⟨rfl, -⟩ := Prod.mk.inj (some.inj here)
        exact absurd own₂ (foreign second call₂ phase₂ gen there own₁)
    · split at there
      · obtain ⟨rfl, -⟩ := Prod.mk.inj (some.inj there)
        exact absurd own₁ (foreign first call₁ phase₁ gen here own₂)
      · exact sound.apart first second call₁ call₂ phase₁ phase₂ gen here there own₁ own₂

theorem Sound.foreign (sound : Sound system.world phases) (here : phases caller = some (call, phase))
    (differ : other ≠ caller) (there : phases other = some (call', phase')) (own : phase'.own = some gen)
    : phase.own ≠ some gen := by
  intro same
  exact differ (sound.apart other caller call' call phase' phase gen there here
    ((sound.owns other call' phase' gen there).mp own)
    ((sound.owns caller call phase gen here).mp same))

theorem Orderly.unfailing (sound : Sound sys.world phases) (here : phases caller = some (call, phase))
    (running : sys.callers caller = some ⟨call, .call request rest⟩)
    (orderly : Orderly sys (.step caller answer)) : ∀ generation, phase.own = some generation →
      (sys.world.tables.index.activeGeneration = generation → answer.fate = .answered) ∧
        ∀ rebuildingCheckpoint, request = .cutOver generation rebuildingCheckpoint → answer.fate ≠ .unacknowledged :=
  fun generation own => orderly call request rest generation running
    ((sound.owns caller call phase generation here).mp own)

theorem Sound.called (opts : RuntimeOptions) (checksum : Record (StoredDocument Document) → String)
    (sound : Sound system.world phases) (here : phases caller = some (call, phase))
    (running : system.callers caller = some ⟨call, .call request rest⟩)
    (permitted : permits reckoning phase request) (orderly : Orderly system (.step caller answer)) :
    Sound ((server opts checksum).answer request answer system.world).2
      (update phases caller (some (call, after phase request
        ((server opts checksum).answer request answer system.world).1))) := by
  obtain ⟨⟨reply, _⟩, came⟩ :
      ∃ answered, (server opts checksum).answer request answer system.world = answered := ⟨_, rfl⟩
  obtain ⟨active, own⟩ := step_agrees permitted (sound.agrees caller call phase here) sound.active
    (Orderly.unfailing sound here running orderly) came
  rw [came]
  refine ⟨active, ?_, ?_, ?_⟩
  · intro other call' phase' there
    rw [update_apply] at there
    split at there
    · cases some.inj there
      exact own
    next differ =>
    apply (sound.agrees other call' phase' there).spared
    intro generation owned
    exact step_spares permitted came (sound.foreign here differ there owned)
  · intro other call' phase' generation there
    rw [update_apply] at there
    split at there
    · cases some.inj there
      rw [own_after reply permitted]
      exact sound.owns caller call phase generation here
    · exact sound.owns other call' phase' generation there
  · intro first second call₁ call₂ phase₁ phase₂ generation one two own₁ own₂
    have known : ∀ some' call' phase', update phases caller (some (call, after phase request reply)) some' =
          some (call', phase') → ∃ phase'', phases some' = some (call', phase'') := by
      intro some' call' phase' held
      rw [update_apply] at held
      split at held
      · next isCaller =>
        obtain ⟨rfl, -⟩ := Prod.mk.inj (some.inj held)
        exact ⟨phase, isCaller ▸ here⟩
      · exact ⟨phase', held⟩
    obtain ⟨before₁, held₁⟩ := known first call₁ phase₁ one
    obtain ⟨before₂, held₂⟩ := known second call₂ phase₂ two
    exact sound.apart first second call₁ call₂ before₁ before₂ generation held₁ held₂ own₁ own₂

theorem Sound.leave (sound : Sound world phases) (caller : Nat) : Sound world (update phases caller none) := by
  have known : ∀ other call phase, update phases caller none other = some (call, phase) →
      phases other = some (call, phase) := by
    intro other call phase held
    rw [update_apply] at held
    split at held
    · cases held
    · exact held
  exact ⟨sound.active, fun other call phase held => sound.agrees other call phase (known _ _ _ held),
    fun other call phase gen held => sound.owns other call phase gen (known _ _ _ held),
    fun first second _ _ _ _ gen one two =>
      sound.apart first second _ _ _ _ gen (known _ _ _ one) (known _ _ _ two)⟩

theorem answers_any (req : Request Document) (answer : Answer Document) (world : World Document) :
    answers .any req ((server opts checksum).answer req answer world).1 := by
  generalize came : ((server opts checksum).answer req answer world).1 = reply
  cases req with
  | affectedRoots => cases reply <;> trivial
  | hydrate => cases reply <;> trivial
  | openSnapshot => cases reply <;> trivial
  | readSnapshot => cases reply <;> trivial
  | remember =>
    subst came
    trivial
  | «recall» process =>
    subst came
    trivial
  | _ => trivial

theorem keeps_sound (opts : RuntimeOptions) (checksum : Record (StoredDocument Document) → String) :
    Crowd.Keeps (server opts checksum) (Call.body opts) (conduct .any) Sound Orderly Call.initial where
  conducted := conducted .any opts
  start _ _ _ _ conducted sound _ orderly := sound.start conducted orderly
  call _ _ _ choice _ _ req _ _ sound here running permitted orderly :=
    ⟨answers_any req choice _, sound.called opts checksum here running permitted orderly⟩
  leave _ _ caller sound := sound.leave caller

/-- No step of a rebuild writes to the generation that is active. -/
def Untouched (options : RuntimeOptions) (checksum : Record (StoredDocument Document) → String)
    (system : System Document) (event : Event Document) : Prop :=
  ∀ caller answer call program generation, event = .step caller answer →
    system.callers caller = some ⟨call, program⟩ → call.rebuilds generation →
    SameRows system.world.tables (next options checksum system event).world.tables
      system.world.tables.index.activeGeneration

theorem untouched_of_kept (kept : system.Kept (conduct .any) Sound) : Untouched opts checksum system event := by
  rintro caller answer call prog generation rfl running rebuilds
  obtain ⟨_, conducted, sound⟩ := kept
  obtain ⟨phase, here, obeys⟩ := conducted.obeys caller call prog running
  unfold next Crowd.advance
  dsimp only
  rw [running]
  cases prog with
  | done value => exact ⟨rfl, rfl⟩
  | throw error => exact ⟨rfl, rfl⟩
  | call req rest =>
    dsimp only
    obtain ⟨⟨_, _⟩, came⟩ : ∃ answered, (server opts checksum).answer req answer system.world = answered := ⟨_, rfl⟩
    rw [came]
    rcases answer_cases came with ⟨_, done, -⟩ | ⟨same, -⟩
    · refine transaction_sameRows obeys.1 (sound.agrees caller call phase here) ?_ (transaction_effect done)
      rw [(sound.owns caller call phase generation here).mpr rebuilds]
      exact some_ne_none _
    · rw [same]
      exact ⟨rfl, rfl⟩

end

/-- In a run without overlapping rebuilds of one generation, and without failures behind a cutover,
no rebuild writes to the active generation, and the active generation is there at the end. -/
theorem active_generation_unharmed (options : RuntimeOptions) (checksum : Record (StoredDocument Document) → String)
    (world : World Document) (active : (world.tables.generations world.tables.index.activeGeneration).isSome)
    (events : List (Event Document)) (orderly : EachStep (next options checksum) Orderly { world } events) :
    EachStep (next options checksum) (Untouched options checksum) { world } events ∧
      let after := (runFrom (next options checksum) { world } events).world.tables
      (after.generations after.index.activeGeneration).isSome := by
  have keeps := keeps_sound options checksum
  have start : Crowd.Kept (conduct .any) Sound ({ world } : System Document) :=
    kept_empty ⟨active, by simp, by simp, by simp⟩
  constructor
  · refine (eachStep_of_steps _ (fun _ event held allowed => keeps.advance event held allowed) start orderly).imp ?_
    rintro _ - _ ⟨kept, -⟩
    exact untouched_of_kept kept
  · obtain ⟨_, -, sound⟩ := keeps.run start orderly
    exact sound.active

end

/-- A runtime whose index holds the first generation, empty and current. -/
def firstWorld : World Unit where
  tables :=
    { index :=
        { activeGeneration := "v1", rebuildingGeneration := none, state := .current, retentionFloor := 0,
          sourceHighWatermark := 0, lastAppliedRecordedAt := none, previousGenerations := [] }
      generations := fun generation => if generation = "v1" then some 0 else none
      documents := fun _ => []
      applied := fun _ => [] }
  caches := fun _ =>
    { activeGeneration := "v1", checkpoint := 0, state := .current, retentionFloor := 0,
      rebuildingGeneration := none, previousGenerations := [], sourceHighWatermark := 0,
      lastAppliedRecordedAt := none }

def firstOptions : RuntimeOptions where
  logicalIndex := "accounts"
  fanOutCeiling := 100
  dates := utcDates

def emptySources : (request : Request Unit) → request.Result
  | .readState => firstWorld.caches 0
  | .recall _ => firstWorld.caches 0
  | .applyChange _ _ _ _ => true
  | .readAggregate _ => (0, "")
  | .readSample _ => []
  | .cutOver _ _ => ""
  | .readChanges _ _ => ⟨[], 0, 0, true⟩
  | .affectedRoots _ _ => ⟨[], true⟩
  | .hydrate _ _ => []
  | .openSnapshot => ⟨0, "snapshot"⟩
  | .readSnapshot _ _ _ => ⟨[], none, true⟩
  | .remember _ _ | .recordPage _ _ | .markLagging | .beginRebuild _ | .writePage _ _ _ | .discard _
  | .retire _ | .closeSnapshot _ | .validate _ => ()

def answered (caller : Nat) : Event Unit := .step caller ⟨.answered, emptySources⟩
def lost (caller : Nat) : Event Unit := .step caller ⟨.lost, emptySources⟩
def rebuilding (generation : String) : Call := ⟨0, .rebuild { generation }⟩

/-- A rebuild from its start through its cutover, which is its seventeenth step, to its end. -/
def rebuildRun : List (Event Unit) := .start 0 (rebuilding "v2") :: List.replicate 21 (answered 0)

theorem orderly_answered (sys : System Unit) (caller : Nat) : Orderly sys (answered caller) :=
  fun _ _ _ _ _ _ => ⟨fun _ => rfl, fun _ _ => by simp⟩

theorem rebuildRun_orderly :
    EachStep (next firstOptions fun _ => "") Orderly { world := firstWorld } rebuildRun := by
  refine ⟨by simp [Orderly], eachStep_of_always ?_⟩
  intro event member sys
  rw [List.eq_of_mem_replicate member]
  exact orderly_answered sys 0

theorem rebuildRun_unharmed :
    let after := (runFrom (next firstOptions fun _ => "") { world := firstWorld } rebuildRun).world.tables
    after.index.activeGeneration = "v2" ∧ (after.generations "v2").isSome := by
  have active : (runFrom (next firstOptions fun _ => "") { world := firstWorld }
      rebuildRun).world.tables.index.activeGeneration = "v2" := by decide +kernel
  refine ⟨active, ?_⟩
  have there := (active_generation_unharmed firstOptions (fun _ => "") firstWorld (by decide)
    rebuildRun rebuildRun_orderly).2
  dsimp only at there
  rwa [active] at there

/-- Two rebuilds of one generation are under way; the first cuts over, then the second fails to open
its snapshot and discards the generation. -/
def overlappingRebuilds : List (Event Unit) :=
  .start 1 (rebuilding "v2") :: List.replicate 6 (answered 1) ++ rebuildRun ++ [lost 1, answered 1]

theorem overlapping_rebuild_deletes_active :
    (firstWorld.tables.generations firstWorld.tables.index.activeGeneration).isSome ∧
      let before := (runFrom (next firstOptions fun _ => "") { world := firstWorld }
        overlappingRebuilds.dropLast).world.tables
      let after := (runFrom (next firstOptions fun _ => "") { world := firstWorld }
        overlappingRebuilds).world.tables
      before.index.activeGeneration = "v2" ∧ before.generations "v2" = some 0 ∧
        after.index.activeGeneration = "v2" ∧ after.generations "v2" = none := by
  decide +kernel

end Applik8s.Search.Postgres
