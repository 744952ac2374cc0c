import Applik8s.Search.Postgres

/-! What a call on the PostgreSQL search runtime does step by step: a rebuild goes through
phases, in each of which it touches only the generation it builds; the other calls apply changes
to the active generation and nothing else. -/
namespace Applik8s.Search.Postgres
open Lib
variable {Document : Type}

inductive Stage (Document : Type) where
  | opening
  /-- The page at the cursor is next. -/
  | paging (opened : OpenedSnapshot) (cursor : Option String)
  /-- The page at the cursor has been read. -/
  | holding (opened : OpenedSnapshot) (cursor : Option String) (page : SnapshotPage Document)
  | loaded

inductive Phase (Document : Type) where
  /-- No generation is under way; a rebuild has one in mind. -/
  | outside (own : Option String)
  /-- A rebuild has written these rows of its generation. -/
  | building (generation : String) (checkpoint : Nat)
      (documents : Record (StoredDocument Document)) (stage : Stage Document)
  /-- A transaction of a rebuild has failed. -/
  | failing (generation : String)
  /-- A rebuild has made its generation the active one. -/
  | published (generation : String)
  /-- A rebuild has failed after that. -/
  | withdrawn (generation : String)

section
variable (reckoning : Reckoning Document)

def permits (phase : Phase Document) : Request Document → Prop
  | .applyChange _ change hydrated true => reckoning.right change hydrated ∧ phase = .outside none
  | .applyChange generation change hydrated false => reckoning.right change hydrated ∧
      ∃ checkpoint documents, phase = .building generation checkpoint documents .loaded
  | .beginRebuild generation => phase = .outside (some generation) ∧ generation ≠ ""
  | .openSnapshot => ∃ generation, phase = .building generation 0 [] .opening
  | .readSnapshot snapshotId cursor _ => ∃ generation checkpoint documents opened,
      phase = .building generation checkpoint documents (.paging opened cursor) ∧ snapshotId = opened.snapshotId
  | .writePage generation items frontier => ∃ checkpoint documents opened cursor page,
      phase = .building generation checkpoint documents (.holding opened cursor page) ∧
        items = page.items ∧ frontier = opened.frontier
  | .cutOver generation rebuildingCheckpoint => ∃ checkpoint documents,
      phase = .building generation checkpoint documents .loaded ∧ rebuildingCheckpoint ≤ checkpoint
  | .discard generation => (∃ checkpoint documents stage,
      phase = .building generation checkpoint documents stage) ∨ phase = .failing generation ∨
        phase = .withdrawn generation
  | .retire _ => phase = .outside none
  | _ => True

def answers : (request : Request Document) → Except Failure request.Result → Prop
  | .affectedRoots change _, .ok affected => reckoning.roots change affected
  | .hydrate identities frontier, .ok hydrated => reckoning.documents identities frontier hydrated
  | .openSnapshot, .ok opened => reckoning.opened opened
  | .readSnapshot snapshotId cursor _, .ok page => reckoning.page snapshotId cursor page
  -- the memory of a process does not fail
  | .remember _ _, .error _ => False
  | .recall _, .error _ => False
  | _, _ => True

def after (phase : Phase Document) :
    (request : Request Document) → Except Failure request.Result → Phase Document
  | .beginRebuild generation, .ok _ => .building generation 0 [] .opening
  | .openSnapshot, .ok opened =>
    match phase with
    | .building generation checkpoint documents _ => .building generation checkpoint documents (.paging opened none)
    | other => other
  | .readSnapshot _ _ _, .ok page =>
    match phase with
    | .building generation checkpoint documents (.paging opened cursor) =>
      .building generation checkpoint documents (.holding opened cursor page)
    | other => other
  | .writePage generation items frontier, .ok _ =>
    match phase with
    | .building _ _ documents (.holding opened _ page) =>
      .building generation frontier (replaceDocuments documents items)
        (if page.exhausted then .loaded else .paging opened page.cursor)
    | other => other
  | .writePage generation _ _, .error _ => .failing generation
  | .applyChange generation change hydrated false, .ok true =>
    match phase with
    | .building _ _ documents _ =>
      .building generation change.commitPosition (replaceDocuments documents hydrated) .loaded
    | other => other
  -- a change that was applied before is no further than the checkpoint
  | .applyChange generation change _ false, .ok false =>
    match phase with
    | .building _ checkpoint documents stage =>
      .building generation (max checkpoint change.commitPosition) documents stage
    | other => other
  | .applyChange generation _ _ false, .error _ => .failing generation
  | .cutOver generation _, .ok _ => .published generation
  | .cutOver generation _, .error _ => .failing generation
  | .discard generation, _ => .outside (some generation)
  | .readState, .error _ =>
    match phase with
    | .published generation => .withdrawn generation
    | other => other
  | _, _ => phase

def conduct : Conduct (Steps Document) (Phase Document) where
  permits := permits reckoning
  answers := answers reckoning
  after := after

def Call.initial (call : Call) : Phase Document :=
  match call.operation with
  | .rebuild rebuildOptions => .outside (some rebuildOptions.generation)
  | _ => .outside none

end

section
variable {reckoning : Reckoning Document} {phase : Phase Document}

theorem obeys_ask (permitted : permits reckoning phase req)
    (closes : ∀ reply, answers reckoning req reply → close (after phase req reply) reply) :
    Obeys (conduct reckoning) close phase (ask req) :=
  ⟨permitted, fun reply answered => obeys_check.mpr (closes reply answered)⟩

/-- The state can be read again without a change of phase. -/
def Phase.Steady (phase : Phase Document) : Prop := ∀ generation, phase ≠ .published generation

theorem after_readState (steady : phase.Steady) (reply : Except Failure ProjectionState) :
    after phase .readState reply = phase := by
  cases reply with
  | ok state => rfl
  | error =>
    cases phase with
    | published generation => exact absurd rfl (steady generation)
    | _ => rfl

theorem obeys_refresh (steady : phase.Steady) :
    Obeys (conduct reckoning) (fun now _ => now = phase) phase (refresh process) := by
  refine obeys_bind.mpr (obeys_ask trivial fun reply _ => ?_)
  cases reply with
  | error => exact after_readState steady _
  | ok state => exact obeys_ask trivial fun _ _ => rfl

theorem obeys_cachedState : Obeys (conduct reckoning) (fun now _ => now = phase) phase (cachedState process) :=
  obeys_ask trivial fun _ _ => rfl

theorem obeys_then {α β : Type} {prog : SearchProgram Document α}
    {next : α → SearchProgram Document β} {close : Phase Document → Except Failure β → Prop}
    (first : Obeys (conduct reckoning) (fun now _ => now = phase) phase prog)
    (rest : ∀ value, Obeys (conduct reckoning) close phase (next value))
    (fails : ∀ err, close phase (.error err)) : Obeys (conduct reckoning) close phase (prog >>= next) := by
  refine obeys_bind.mpr (first.weaken fun now res same => ?_)
  subst same
  cases res with
  | ok value => exact rest value
  | error err => exact fails err

theorem obeys_setSourcePage (steady : phase.Steady) (page : ChangePage) (mark : Nat) :
    Obeys (conduct reckoning) (fun now _ => now = phase) phase (setSourcePage process page mark) := by
  refine obeys_then (obeys_check.mpr rfl) (fun _ => ?_) fun _ => rfl
  refine obeys_then (obeys_check.mpr rfl) (fun _ => ?_) fun _ => rfl
  refine obeys_then (obeys_ask trivial fun _ _ => rfl) (fun _ => ?_) fun _ => rfl
  refine obeys_then (obeys_refresh steady) (fun _ => ?_) fun _ => rfl
  split <;> rfl

theorem obeys_hydrateChange (steady : phase.Steady) (change : CommittedChange) :
    Obeys (conduct reckoning) (fun now res => now = phase ∧
      ∀ hydrated, res = .ok hydrated → reckoning.right change hydrated) phase
      (hydrateChange opts process change) := by
  refine obeys_then (obeys_check.mpr rfl) (fun _ => ?_) fun _ => ⟨rfl, by simp⟩
  refine obeys_bind.mpr (obeys_ask trivial fun reply answered => ?_)
  cases reply with
  | error => exact ⟨rfl, by simp⟩
  | ok affected =>
    dsimp only
    split
    · refine obeys_then (obeys_ask trivial fun _ _ => rfl) (fun _ => ?_) fun _ => ⟨rfl, by simp⟩
      exact obeys_then (obeys_refresh steady) (fun _ => ⟨rfl, by simp⟩) fun _ => ⟨rfl, by simp⟩
    next within =>
    refine obeys_bind.mpr (obeys_ask trivial fun reply hydration => ?_)
    cases reply with
    | error => exact ⟨rfl, by simp⟩
    | ok hydrated =>
      refine ⟨rfl, ?_⟩
      intro docs same
      cases same
      have complete : affected.complete = true := by
        simpa using (by simpa using within : affected.complete = true ∧ _).1
      exact reckoning.right_of_answers change affected hydrated answered complete hydration

variable (generation : String)

theorem obeys_applyActive (right : reckoning.right change hydrated) :
    Obeys (conduct reckoning) (fun now _ => now = .outside none) (.outside none)
      (applyToGeneration process generation change hydrated true) := by
  refine obeys_then (obeys_ask ⟨right, rfl⟩ fun _ _ => rfl) (fun _ => ?_) fun _ => rfl
  exact obeys_then (obeys_refresh (by simp [Phase.Steady])) (fun _ => rfl) fun _ => rfl

theorem steady_outside (own : Option String) : (Phase.outside own : Phase Document).Steady := by
  simp [Phase.Steady]

variable (change : CommittedChange)

theorem obeys_applied :
    Obeys (conduct reckoning) (fun now _ => now = .outside none) (.outside none) (do
        let hydrated ← hydrateChange opts process change
        applyToGeneration process generation change hydrated true) := by
  refine obeys_bind.mpr ((obeys_hydrateChange (steady_outside none) change).weaken ?_)
  rintro _ res ⟨rfl, right⟩
  cases res with
  | error => rfl
  | ok hydrated => exact obeys_applyActive generation (right hydrated rfl)

theorem obeys_apply :
    Obeys (conduct reckoning) (fun now _ => now = .outside none) (.outside none) (apply opts process change) := by
  refine obeys_then (obeys_refresh (steady_outside none)) (fun _ => ?_) fun _ => rfl
  refine obeys_then obeys_cachedState (fun state => ?_) fun _ => rfl
  split
  · rfl
  refine obeys_bind.mpr ((obeys_hydrateChange (steady_outside none) change).weaken ?_)
  rintro _ res ⟨rfl, right⟩
  cases res with
  | error => rfl
  | ok hydrated => exact obeys_then (obeys_applyActive _ (right hydrated rfl)) (fun _ => rfl) fun _ => rfl

theorem obeys_collect {α β : Type} {items : List α} {iteration : α → SearchProgram Document β}
    (each : ∀ item, Obeys (conduct reckoning) (fun now _ => now = phase) phase (iteration item)) :
    Obeys (conduct reckoning) (fun now _ => now = phase) phase (Program.collect items iteration) := by
  induction items with
  | nil => rfl
  | cons item rest ih =>
    refine obeys_then (each item) (fun value => ?_) fun _ => rfl
    exact obeys_then ih (fun _ => rfl) fun _ => rfl

theorem obeys_synchronizeBatches (batchSize batches applied : Nat) :
    Obeys (conduct reckoning) (fun now _ => now = .outside none) (.outside none)
      (synchronizeBatches opts process batchSize batches applied) := by
  induction batches generalizing applied with
  | zero => exact obeys_then obeys_cachedState (fun _ => rfl) fun _ => rfl
  | succ batches ih =>
    refine obeys_then (obeys_refresh (steady_outside none)) (fun _ => ?_) fun _ => rfl
    refine obeys_then obeys_cachedState (fun state => ?_) fun _ => rfl
    split
    · rfl
    refine obeys_then (obeys_ask trivial fun reply _ => by cases reply <;> rfl) (fun page => ?_) fun _ => rfl
    refine obeys_then (obeys_setSourcePage (steady_outside none) page state.checkpoint) (fun _ => ?_) fun _ => rfl
    refine obeys_then (obeys_collect fun change => obeys_applied state.activeGeneration change)
      (fun outcomes => ?_) fun _ => rfl
    refine obeys_then (obeys_refresh (steady_outside none)) (fun _ => ?_) fun _ => rfl
    split
    · exact obeys_then obeys_cachedState (fun _ => rfl) fun _ => rfl
    · exact ih _

theorem obeys_synchronize (batchSize maximumBatches : Option Nat) :
    Obeys (conduct reckoning) (fun now _ => now = .outside none) (.outside none)
      (synchronize opts process batchSize maximumBatches) := by
  refine obeys_then (obeys_check.mpr rfl) (fun _ => ?_) fun _ => rfl
  refine obeys_then (obeys_check.mpr rfl) (fun _ => ?_) fun _ => rfl
  exact obeys_synchronizeBatches _ _ _

theorem obeys_retire :
    Obeys (conduct reckoning) (fun now _ => now = .outside none) (.outside none) (retire process generation) := by
  refine obeys_then (obeys_check.mpr rfl) (fun _ => ?_) fun _ => rfl
  refine obeys_then (obeys_ask rfl fun _ _ => rfl) (fun _ => ?_) fun _ => rfl
  exact obeys_refresh (steady_outside none)

end

section
variable {reckoning : Reckoning Document} {generation : String}

/-- A rebuild of the generation that may still give it up. -/
def Phase.Building (generation : String) (phase : Phase Document) : Prop :=
  (∃ checkpoint documents stage, phase = .building generation checkpoint documents stage) ∨ phase = .failing generation

/-- A rebuild that has written its snapshot, and changes up to a position. -/
def Phase.Loaded (generation : String) (reached : Nat) (phase : Phase Document) : Prop :=
  ∃ checkpoint documents, phase = .building generation checkpoint documents .loaded ∧ reached ≤ checkpoint

variable {phase : Phase Document}

theorem Phase.Loaded.building (loaded : phase.Loaded generation reached) : phase.Building generation := by
  obtain ⟨mark, docs, rfl, -⟩ := loaded
  exact .inl ⟨mark, docs, .loaded, rfl⟩

theorem Phase.Building.steady (building : phase.Building generation) : phase.Steady := by
  rcases building with ⟨_, _, _, rfl⟩ | rfl <;> simp [Phase.Steady]

variable (opened : OpenedSnapshot) (batchSize maximumPages : Nat)

theorem obeys_writePages :
    ∀ (pages : Nat) (cursor : Option String) (mark : Nat) (docs : Record (StoredDocument Document)),
    Obeys (conduct reckoning) (fun now res => match res with
        | .ok _ => now.Loaded generation opened.frontier
        | .error _ => now.Building generation)
      (.building generation mark docs (.paging opened cursor))
      (writePages opts generation opened batchSize maximumPages pages cursor) := by
  intro pages
  induction pages with
  | zero => exact fun cursor mark docs => .inl ⟨_, _, _, rfl⟩
  | succ pages ih =>
    intro cursor mark docs
    refine obeys_bind.mpr (obeys_ask ⟨_, _, _, opened, rfl, rfl⟩ fun reply _ => ?_)
    cases reply with
    | error => exact .inl ⟨_, _, _, rfl⟩
    | ok page =>
      refine obeys_bind.mpr (obeys_ask ⟨_, _, opened, cursor, page, rfl, rfl, rfl⟩ fun reply _ => ?_)
      cases reply with
      | error => exact .inr rfl
      | ok _ =>
        simp only [after]
        split
        · next exhausted => exact ⟨_, _, rfl, le_refl _⟩
        split
        · exact .inl ⟨_, _, _, rfl⟩
        · exact ih _ _ _

theorem obeys_loadSnapshot :
    Obeys (conduct reckoning) (fun now res => match res with
        | .ok _ => now.Loaded generation opened.frontier
        | .error _ => now.Building generation)
      (.building generation 0 [] (.paging opened none))
      (loadSnapshot opts generation opened batchSize maximumPages) := by
  refine obeys_bind.mpr (obeys_attempt.mpr ((obeys_writePages opened batchSize maximumPages
    maximumPages none 0 []).weaken fun now loaded closed => ?_))
  have building : now.Building generation := by
    cases loaded with
    | ok _ => exact Phase.Loaded.building closed
    | error _ => exact closed
  refine obeys_bind.mpr (obeys_ask trivial fun reply _ => ?_)
  cases reply with
  | error => exact building
  | ok _ =>
    refine obeys_check.mpr ?_
    cases loaded <;> exact closed

theorem obeys_catchUpItems (items : List CommittedChange) :
    ∀ (phase : Phase Document) (reached : Nat), phase.Loaded generation reached →
    Obeys (conduct reckoning) (fun now res => match res with
        | .ok further => now.Loaded generation further
        | .error _ => now.Building generation) phase
      (catchUpItems opts process generation items reached) := by
  induction items with
  | nil => exact fun phase reached loaded => loaded
  | cons change rest ih =>
    intro phase reached loaded
    refine obeys_bind.mpr ((obeys_hydrateChange loaded.building.steady change).weaken ?_)
    rintro _ res ⟨rfl, right⟩
    cases res with
    | error => exact loaded.building
    | ok hydrated =>
      obtain ⟨mark, docs, rfl, -⟩ := loaded
      refine obeys_bind.mpr (obeys_bind.mpr (obeys_ask ⟨right hydrated rfl, _, _, rfl⟩ fun reply _ => ?_))
      cases reply with
      | error => exact .inr rfl
      | ok applied =>
        have further : (after (.building generation mark docs .loaded)
            (.applyChange generation change hydrated false) (.ok applied)).Loaded generation
              change.commitPosition := by
          cases applied with
          | true => exact ⟨_, _, rfl, le_refl _⟩
          | false => exact ⟨_, _, rfl, le_max_right _ _⟩
        exact obeys_then (obeys_refresh further.building.steady) (fun _ => ih _ _ further) fun _ => further.building

theorem obeys_catchUp (batchSize maximumBatches : Nat) :
    ∀ (batches : Nat) (phase : Phase Document) (reached : Nat), phase.Loaded generation reached →
    Obeys (conduct reckoning) (fun now res => match res with
        | .ok further => now.Loaded generation further
        | .error _ => now.Building generation) phase
      (catchUp opts process generation batchSize maximumBatches batches reached) := by
  intro batches
  induction batches with
  | zero => exact fun phase reached loaded => loaded.building
  | succ batches ih =>
    intro phase reached loaded
    refine obeys_then (obeys_ask trivial fun reply _ => by cases reply <;> rfl) (fun page => ?_)
      fun _ => loaded.building
    refine obeys_then (obeys_setSourcePage loaded.building.steady page reached) (fun _ => ?_) fun _ => loaded.building
    refine obeys_bind.mpr ((obeys_catchUpItems page.items phase reached loaded).weaken ?_)
    intro now res closed
    cases res with
    | error => exact closed
    | ok further =>
      dsimp only
      split
      · exact closed
      · exact ih now further closed

theorem obeys_readValidation :
    Obeys (conduct reckoning) (fun now _ => now = phase) phase (readValidation generation) := by
  refine obeys_then (obeys_ask trivial fun _ _ => rfl) (fun aggregate => ?_) fun _ => rfl
  exact obeys_then (obeys_ask trivial fun _ _ => rfl) (fun _ => rfl) fun _ => rfl

variable (rebuildOptions : RebuildOptions)

/-- Under the failure handler: the generation is published at the end, and otherwise may be given
up. -/
theorem obeys_rebuildGeneration (batchSize maximumSnapshotPages maximumCatchupBatches : Nat) :
    Obeys (conduct reckoning) (fun now res => match res with
        | .ok _ => True
        | .error _ => now.Building rebuildOptions.generation ∨ now = .withdrawn rebuildOptions.generation)
      (.building rebuildOptions.generation 0 [] .opening)
      (rebuildGeneration opts process rebuildOptions batchSize maximumSnapshotPages
        maximumCatchupBatches) := by
  refine obeys_bind.mpr (obeys_ask ⟨_, rfl⟩ fun reply _ => ?_)
  cases reply with
  | error => exact .inl (.inl ⟨_, _, _, rfl⟩)
  | ok opened =>
    refine obeys_then (obeys_check.mpr rfl) (fun _ => ?_) fun _ => .inl (.inl ⟨_, _, _, rfl⟩)
    split
    · exact .inl (.inl ⟨_, _, _, rfl⟩)
    refine obeys_bind.mpr ((obeys_loadSnapshot opened batchSize maximumSnapshotPages).weaken ?_)
    intro now res closed
    cases res with
    | error => exact .inl closed
    | ok _ =>
      refine obeys_bind.mpr ((obeys_catchUp batchSize maximumCatchupBatches maximumCatchupBatches
        now opened.frontier closed).weaken ?_)
      intro now res closed
      cases res with
      | error => exact .inl closed
      | ok reached =>
        refine obeys_then obeys_readValidation (fun validation => ?_) fun _ => .inl closed.building
        have published : Obeys (conduct reckoning) (fun now res => match res with
            | .ok _ => True
            | .error _ => now.Building rebuildOptions.generation ∨ now = .withdrawn rebuildOptions.generation) now
            (publish process rebuildOptions.generation opened reached validation) := by
          refine obeys_bind.mpr (obeys_ask closed fun reply _ => ?_)
          cases reply with
          | error => exact .inl (.inr rfl)
          | ok =>
            refine obeys_bind.mpr (obeys_bind.mpr (obeys_ask trivial fun reply _ => ?_))
            cases reply with
            | error => exact .inr rfl
            | ok state =>
              refine obeys_ask trivial fun reply answered => ?_
              cases reply with
              | error => exact answered.elim
              | ok _ =>
                refine obeys_bind.mpr (obeys_ask trivial fun reply answered => ?_)
                cases reply with
                | error => exact answered.elim
                | ok state => trivial
        split
        · exact obeys_then (obeys_ask trivial fun reply _ => by cases reply <;> rfl)
            (fun _ => published) fun _ => .inl closed.building
        · exact published

theorem assertIdentifier_ok (accepted : assertIdentifier value name = .ok ()) : value ≠ "" := by
  rintro rfl
  simp [assertIdentifier, isStableIdentifier] at accepted

theorem obeys_rebuild : Obeys (conduct reckoning) (fun _ _ => True) (.outside (some rebuildOptions.generation))
      (rebuild opts process rebuildOptions) := by
  refine obeys_bind.mpr (obeys_check.mpr ?_)
  cases named : assertIdentifier rebuildOptions.generation "generation" with
  | error => trivial
  | ok _ =>
    refine obeys_then (obeys_check.mpr rfl) (fun batchSize => ?_) fun _ => trivial
    refine obeys_then (obeys_check.mpr rfl) (fun maximumSnapshotPages => ?_) fun _ => trivial
    refine obeys_then (obeys_check.mpr rfl) (fun maximumCatchupBatches => ?_) fun _ => trivial
    refine obeys_then (obeys_refresh (steady_outside _)) (fun _ => ?_) fun _ => trivial
    refine obeys_then obeys_cachedState (fun state => ?_) fun _ => trivial
    split
    · trivial
    refine obeys_bind.mpr (obeys_ask ⟨rfl, assertIdentifier_ok named⟩ fun reply _ => ?_)
    cases reply with
    | error => trivial
    | ok _ =>
      refine obeys_then (obeys_refresh (by simp [Phase.Steady, after])) (fun _ => ?_) fun _ => trivial
      refine obeys_bind.mpr (obeys_attempt.mpr ((obeys_rebuildGeneration rebuildOptions batchSize
        maximumSnapshotPages maximumCatchupBatches).weaken ?_))
      intro now out closed
      cases out with
      | ok res => trivial
      | error err =>
        refine obeys_bind.mpr (obeys_ask ?_ fun reply _ => ?_)
        · rcases closed with (building | failing) | withdrawn
          · exact .inl building
          · exact .inr (.inl failing)
          · exact .inr (.inr withdrawn)
        · cases reply with
          | error => trivial
          | ok _ => exact obeys_then (obeys_refresh (steady_outside _)) (fun _ => trivial) fun _ => trivial

end

theorem conducted (reckoning : Reckoning Document) (opts : RuntimeOptions) (call : Call) :
    Obeys (conduct reckoning) (fun _ _ => True) call.initial (call.body opts) := by
  obtain ⟨_, op⟩ := call
  have ended : ∀ (now : Phase Document) (res : Except Failure Unit), now = .outside none → True :=
    fun _ _ _ => trivial
  cases op with
  | refresh => exact (obeys_refresh (steady_outside none)).weaken ended
  | apply change => exact (obeys_apply change).weaken ended
  | synchronize batchSize maximumBatches =>
    exact obeys_then (obeys_synchronize batchSize maximumBatches) (fun _ => trivial) fun _ => trivial
  | retire generation => exact (obeys_retire generation).weaken ended
  | rebuild rebuildOptions =>
    refine obeys_bind.mpr ((obeys_rebuild rebuildOptions).weaken fun now res _ => ?_)
    cases res <;> trivial

end Applik8s.Search.Postgres
