import Applik8s.Search.Deterministic

/-! What a call on the deterministic search runtime holds on to step by step: an object that it
loads alone, or one that is loaded and to which it may write the change it was admitted with. -/
namespace Applik8s.Search.Deterministic
open Lib
variable {Document : Type}

inductive Phase (Document : Type) where
  | idle
  /-- A rebuild of the generation has been admitted. -/
  | entered (generation : String)
  /-- It has a snapshot. -/
  | ready (generation : String) (opened : OpenedSnapshot)
  /-- The page at the cursor is next. -/
  | loading (generation : String) (object : Nat) (opened : OpenedSnapshot) (cursor : Option String)
  /-- The page at the cursor has been read. -/
  | holding (generation : String) (object : Nat) (opened : OpenedSnapshot) (cursor : Option String)
      (page : SnapshotPage Document)
  /-- Changes go to the object; the last one that was admitted is at this position. -/
  | writing (object : Nat) (own : Option String) (admitted : Option Nat)

section
variable (reckoning : Reckoning Document)

def permits (phase : Phase Document) : Request Document → Prop
  | .admitChange object _ => ∃ own admitted, phase = .writing object own admitted
  | .write object change hydrated _ => reckoning.right change hydrated ∧
      ∃ own, phase = .writing object own (some change.commitPosition)
  | .openSnapshot => ∃ generation, phase = .entered generation
  | .allocate generation frontier => ∃ opened, phase = .ready generation opened ∧ frontier = opened.frontier
  | .readSnapshot snapshotId cursor _ => ∃ generation object opened,
      phase = .loading generation object opened cursor ∧ snapshotId = opened.snapshotId
  | .load object items => ∃ generation opened cursor page,
      phase = .holding generation object opened cursor page ∧ items = page.items
  | .cutOver generation object => ∃ admitted, phase = .writing object (some generation) admitted
  | _ => True

def answers : (request : Request Document) → Except Failure request.Result → Prop
  | .affectedRoots change _, .ok affected => reckoning.roots change affected
  | .hydrate identities frontier, .ok hydrated => reckoning.documents identities frontier hydrated
  | .openSnapshot, .ok opened => reckoning.opened opened
  | .readSnapshot snapshotId cursor _, .ok page => reckoning.page snapshotId cursor page
  | _, _ => True

def after (phase : Phase Document) :
    (request : Request Document) → Except Failure request.Result → Phase Document
  | .enter change, .ok (some object) => .writing object none (some change.commitPosition)
  | .current, .ok (object, _) => .writing object none none
  | .admitChange _ change, .ok true =>
    match phase with
    | .writing object own _ => .writing object own (some change.commitPosition)
    | other => other
  | .enterRebuild generation, .ok _ => .entered generation
  | .openSnapshot, .ok opened =>
    match phase with
    | .entered generation => .ready generation opened
    | other => other
  | .allocate generation _, .ok object =>
    match phase with
    | .ready _ opened => .loading generation object opened none
    | other => other
  | .readSnapshot _ _ _, .ok page =>
    match phase with
    | .loading generation object opened cursor => .holding generation object opened cursor page
    | other => other
  | .load _ _, _ =>
    match phase with
    | .holding generation object opened _ page =>
      if page.exhausted then .writing object (some generation) none
      else .loading generation object opened page.cursor
    | other => other
  | _, _ => phase

def conduct : Conduct (Steps Document) (Phase Document) where
  permits := permits reckoning
  answers := answers reckoning
  after := after

end

section
variable {phase : Phase Document} {object : Nat} {own : Option String}

theorem obeys_ask (permitted : permits reckoning phase req)
    (closes : ∀ reply, answers reckoning req reply → close (after phase req reply) reply) :
    Obeys (conduct reckoning) close phase (ask req) :=
  ⟨permitted, fun reply answered => obeys_check.mpr (closes reply answered)⟩

def Reaches {α : Type} (reached : Phase Document → Prop) (phase : Phase Document)
    (result : Except Failure α) : Prop :=
  ∀ value, result = .ok value → reached phase

theorem obeys_then {reckoning : Reckoning Document} {α β : Type} {prog : SearchProgram Document α}
    {next : α → SearchProgram Document β} {close : Phase Document → Except Failure β → Prop}
    (reached : Phase Document → Prop) (first : Obeys (conduct reckoning) (Reaches reached) phase prog)
    (rest : ∀ value now, reached now → Obeys (conduct reckoning) close now (next value))
    (fails : ∀ now err, close now (.error err)) : Obeys (conduct reckoning) close phase (prog >>= next) := by
  refine obeys_bind.mpr (first.weaken fun now res reaches => ?_)
  cases res with
  | ok value => exact rest value now (reaches value rfl)
  | error err => exact fails now err

theorem reaches_error {α : Type} (err : Failure) : Reaches reached now (.error err : Except Failure α) := nofun

def Phase.Uses (object : Nat) (own : Option String) (phase : Phase Document) : Prop :=
  ∃ admitted, phase = .writing object own admitted

variable (change : CommittedChange)

theorem obeys_applyAdmitted (updateActiveState : Bool) :
    Obeys (conduct reckoning) (Reaches (Phase.Uses obj own)) (.writing obj own (some change.commitPosition))
      (applyAdmitted opts obj change updateActiveState) := by
  refine obeys_bind.mpr (obeys_ask trivial fun reply answered => ?_)
  cases reply with
  | error err => exact reaches_error err
  | ok affected =>
    dsimp only
    split
    · refine obeys_bind.mpr (obeys_ask trivial fun reply _ => ?_)
      cases reply <;> exact reaches_error _
    next within =>
    refine obeys_bind.mpr (obeys_ask trivial fun reply hydration => ?_)
    cases reply with
    | error err => exact reaches_error err
    | ok hydrated =>
      have complete : affected.complete = true := by
        simpa using (by simpa using within : affected.complete = true ∧ _).1
      refine obeys_ask ⟨reckoning.right_of_answers change affected hydrated answered complete
        hydration, own, rfl⟩ fun reply _ => ?_
      exact fun _ _ => ⟨some change.commitPosition, rfl⟩

theorem obeys_applyToGeneration (updateActiveState : Bool) (uses : phase.Uses obj own) :
    Obeys (conduct reckoning) (Reaches (Phase.Uses obj own)) phase
      (applyToGeneration opts obj change updateActiveState) := by
  obtain ⟨admitted, rfl⟩ := uses
  refine obeys_bind.mpr (obeys_ask ⟨own, admitted, rfl⟩ fun reply _ => ?_)
  cases reply with
  | error err => exact reaches_error err
  | ok fresh =>
    cases fresh with
    | false => exact fun _ _ => ⟨admitted, rfl⟩
    | true =>
      refine obeys_then _ (obeys_applyAdmitted change updateActiveState) (fun _ now uses => ?_)
        fun _ err => reaches_error err
      exact fun _ _ => uses

theorem obeys_collect (items : List CommittedChange) (updateActiveState : Bool) (uses : phase.Uses obj own) :
    Obeys (conduct reckoning) (Reaches (Phase.Uses obj own)) phase (Program.collect items fun change =>
        applyToGeneration opts obj change updateActiveState) := by
  induction items generalizing phase with
  | nil => exact fun _ _ => uses
  | cons change rest ih =>
    refine obeys_then _ (obeys_applyToGeneration change updateActiveState uses) (fun _ now uses => ?_)
      fun _ err => reaches_error err
    exact obeys_then _ (ih uses) (fun _ _ uses _ _ => uses) fun _ err => reaches_error err

theorem obeys_apply :
    Obeys (conduct reckoning) (fun _ _ => True) phase (apply opts change) := by
  refine obeys_bind.mpr (obeys_ask trivial fun reply _ => ?_)
  cases reply with
  | error => trivial
  | ok admitted =>
    cases admitted with
    | none => trivial
    | some obj => exact (obeys_applyAdmitted change true).weaken fun _ _ _ => trivial

theorem obeys_synchronizeBatches (batchSize batches applied : Nat) : Obeys (conduct reckoning) (fun _ _ => True) phase
      (synchronizeBatches opts batchSize batches applied) := by
  induction batches generalizing applied phase with
  | zero =>
    refine obeys_bind.mpr (obeys_ask trivial fun reply _ => ?_)
    cases reply <;> trivial
  | succ batches ih =>
    refine obeys_bind.mpr (obeys_ask trivial fun reply _ => ?_)
    cases reply with
    | error => trivial
    | ok cur =>
      obtain ⟨_, _⟩ := cur
      refine obeys_bind.mpr (obeys_ask trivial fun reply _ => ?_)
      cases reply with
      | error => trivial
      | ok page =>
        refine obeys_bind.mpr (obeys_ask trivial fun reply _ => ?_)
        cases reply with
        | error => trivial
        | ok _ =>
          refine obeys_then _ (obeys_collect page.items true ⟨none, rfl⟩) (fun outcomes now _ => ?_) fun _ _ => trivial
          split
          · refine obeys_bind.mpr (obeys_ask trivial fun reply _ => ?_)
            cases reply <;> trivial
          · exact ih _

theorem obeys_synchronize (batchSize maximumBatches : Option Nat) : Obeys (conduct reckoning) (fun _ _ => True) phase
      (synchronize opts batchSize maximumBatches) := by
  refine obeys_then (fun _ => True) (obeys_check.mpr fun _ _ => trivial) (fun _ _ _ => ?_) fun _ _ => trivial
  refine obeys_then (fun _ => True) (obeys_check.mpr fun _ _ => trivial) (fun _ _ _ => ?_) fun _ _ => trivial
  exact obeys_synchronizeBatches _ _ _

variable (rebuildOptions : RebuildOptions) (opened : OpenedSnapshot)

theorem obeys_loadPages (batchSize maximumPages pages : Nat) (cursor : Option String) :
    Obeys (conduct reckoning) (Reaches (Phase.Uses obj (some gen))) (.loading gen obj opened cursor)
      (loadPages opts obj opened batchSize maximumPages pages cursor) := by
  induction pages generalizing cursor with
  | zero => exact reaches_error _
  | succ pages ih =>
    refine obeys_bind.mpr (obeys_ask ⟨gen, obj, opened, rfl, rfl⟩ fun reply _ => ?_)
    cases reply with
    | error err => exact reaches_error err
    | ok page =>
      refine obeys_bind.mpr (obeys_ask ⟨gen, opened, cursor, page, rfl, rfl⟩ fun reply _ => ?_)
      cases reply with
      | error err => exact reaches_error err
      | ok _ =>
        dsimp only [after]
        by_cases last : page.exhausted = true
        · rw [if_pos last, if_pos last]
          exact fun _ _ => ⟨none, rfl⟩
        rw [if_neg last, if_neg last]
        split
        · exact reaches_error _
        · exact ih page.cursor

theorem obeys_loadSnapshot (batchSize maximumPages : Nat) :
    Obeys (conduct reckoning) (Reaches (Phase.Uses obj (some gen))) (.loading gen obj opened none)
      (loadSnapshot opts obj opened batchSize maximumPages) := by
  refine obeys_bind.mpr (obeys_attempt.mpr ((obeys_loadPages opened batchSize maximumPages
    maximumPages none).weaken fun now res reaches => ?_))
  refine obeys_bind.mpr (obeys_ask trivial fun reply _ => ?_)
  cases reply with
  | error err => exact reaches_error err
  | ok _ => exact obeys_check.mpr reaches

theorem obeys_catchUp (batchSize maximumBatches batches : Nat) (uses : phase.Uses obj own) :
    Obeys (conduct reckoning) (Reaches (Phase.Uses obj own)) phase
      (catchUp opts obj batchSize maximumBatches batches) := by
  induction batches generalizing phase with
  | zero => exact reaches_error _
  | succ batches ih =>
    refine obeys_then (Phase.Uses obj own) (obeys_ask trivial fun reply _ _ _ => uses)
      (fun mark now uses => ?_) fun _ err => reaches_error err
    refine obeys_then (Phase.Uses obj own) (obeys_ask trivial fun reply _ _ _ => uses)
      (fun page now uses => ?_) fun _ err => reaches_error err
    refine obeys_then (Phase.Uses obj own) (obeys_ask trivial fun reply _ _ _ => uses)
      (fun _ now uses => ?_) fun _ err => reaches_error err
    refine obeys_then _ (obeys_collect page.items false uses) (fun _ now uses => ?_) fun _ err => reaches_error err
    refine obeys_then (Phase.Uses obj own) (obeys_ask trivial fun reply _ _ _ => uses)
      (fun mark now uses => ?_) fun _ err => reaches_error err
    split
    · exact fun _ _ => uses
    · exact ih uses

theorem obeys_rebuildGeneration {reckoning : Reckoning Document} {opts : RuntimeOptions}
    (batchSize maximumSnapshotPages maximumCatchupBatches : Nat) : Obeys (conduct reckoning) (fun _ _ => True)
      (.loading rebuildOptions.generation obj opened none)
      (rebuildGeneration opts rebuildOptions opened obj batchSize maximumSnapshotPages
        maximumCatchupBatches) := by
  refine obeys_then _ (obeys_loadSnapshot opened batchSize maximumSnapshotPages)
    (fun _ now uses => ?_) fun _ _ => trivial
  refine obeys_then _ (obeys_catchUp batchSize maximumCatchupBatches maximumCatchupBatches uses)
    (fun _ now uses => ?_) fun _ _ => trivial
  refine obeys_then (Phase.Uses obj (some rebuildOptions.generation))
    (obeys_ask trivial fun reply _ _ _ => uses) (fun validation now uses => ?_) fun _ _ => trivial
  have published : ∀ now : Phase Document, now.Uses obj (some rebuildOptions.generation) →
      Obeys (conduct reckoning) (fun _ _ => True) now (do
        let published ← ask (.cutOver rebuildOptions.generation obj)
        return ({
          generation := rebuildOptions.generation
          previousGeneration := published.1
          sourceFrontier := opened.frontier
          publishedCheckpoint := published.2.1
          documents := published.2.2
          validation } : RebuildResult)) := by
    rintro now ⟨admitted, rfl⟩
    refine obeys_bind.mpr (obeys_ask ⟨admitted, rfl⟩ fun reply _ => ?_)
    cases reply <;> trivial
  split
  · exact obeys_then (Phase.Uses obj (some rebuildOptions.generation))
      (obeys_ask trivial fun reply _ _ _ => uses) (fun _ => published) fun _ _ => trivial
  · exact published now uses

theorem obeys_rebuild :
    Obeys (conduct reckoning) (fun _ _ => True) phase (rebuild opts rebuildOptions) := by
  refine obeys_then (fun _ => True) (obeys_check.mpr fun _ _ => trivial) (fun _ now _ => ?_) fun _ _ => trivial
  refine obeys_bind.mpr (obeys_ask trivial fun reply _ => ?_)
  cases reply with
  | error => trivial
  | ok _ =>
    refine obeys_then (· = .entered rebuildOptions.generation) (obeys_check.mpr fun _ _ => rfl)
      (fun batchSize now is => ?_) fun _ _ => trivial
    refine obeys_then (· = .entered rebuildOptions.generation) (obeys_check.mpr fun _ _ => is)
      (fun maximumSnapshotPages now is => ?_) fun _ _ => trivial
    refine obeys_then (· = .entered rebuildOptions.generation) (obeys_check.mpr fun _ _ => is)
      (fun maximumCatchupBatches now is => ?_) fun _ _ => trivial
    subst is
    refine obeys_bind.mpr (obeys_ask ⟨_, rfl⟩ fun reply _ => ?_)
    cases reply with
    | error => trivial
    | ok opened =>
      refine obeys_then (· = .ready rebuildOptions.generation opened) (obeys_check.mpr fun _ _ => rfl)
        (fun _ now is => ?_) fun _ _ => trivial
      subst is
      split
      · trivial
      refine obeys_bind.mpr (obeys_ask ⟨opened, rfl, rfl⟩ fun reply _ => ?_)
      cases reply with
      | error => trivial
      | ok obj =>
        refine obeys_bind.mpr (obeys_attempt.mpr ((obeys_rebuildGeneration rebuildOptions opened
          batchSize maximumSnapshotPages maximumCatchupBatches).weaken fun now out _ => ?_))
        cases out with
        | ok res => trivial
        | error =>
          refine obeys_bind.mpr (obeys_ask trivial fun reply _ => ?_)
          cases reply <;> trivial

theorem conducted (reckoning : Reckoning Document) (opts : RuntimeOptions) (op : Operation) :
    Obeys (conduct reckoning) (fun _ _ => True) .idle (op.body opts) := by
  cases op with
  | apply change => exact obeys_apply change
  | synchronize batchSize maximumBatches =>
    exact obeys_then (fun _ => True) ((obeys_synchronize batchSize maximumBatches).weaken fun _ _ _ _ _ => trivial)
      (fun _ _ _ => trivial) fun _ _ => trivial
  | rebuild rebuildOptions =>
    exact obeys_then (fun _ => True) ((obeys_rebuild rebuildOptions).weaken fun _ _ _ _ _ => trivial)
      (fun _ _ _ => trivial) fun _ _ => trivial
  | retire => exact obeys_ask trivial fun _ _ => trivial

end
end Applik8s.Search.Deterministic
