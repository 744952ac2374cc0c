import Applik8s.OnlineProjection.Invariants

/-! What each command leaves of the keys and of what the others know. -/
namespace Applik8s.OnlineProjection
open Lib List Option Nat
open Streams (Through PageSound)
open Function (update update_of_ne update_self)
open List.Subset (refl)
variable {Payload Row : Type} {opts : WriterOptions Row} {rebuild : RebuildOptions Payload Row}
  {live : ProjectionOptions Payload Row} {world world' : World Payload Row} {mover : Option Nat}

/-! ### Commands that leave the generations -/

/-- The generations stand as they stood, and which of them is active. -/
structure Leaves (world world' : World Payload Row) : Prop where
  log : world.log.Leads world'.log
  attempts : world.attempts ≤ world'.attempts
  checkpoint : world.checkpointSequence ≤ world'.checkpointSequence
  snapshots : world.snapshots ⊆ world'.snapshots
  active : world'.active = world.active
  generations : world'.generations = world.generations
  applied : world'.applied = world.applied
  written : world'.written = world.written

theorem Leaves.respects (leaves : Leaves world world') (owner : world'.owner = world.owner ∨
    ∃ num, mover = some num ∧ world'.owner = some num ∧ num < world.attempts) :
    Respects rebuild mover world world' where
  log := leaves.log
  attempts := leaves.attempts
  checkpoint := leaves.checkpoint
  snapshots := leaves.snapshots
  present := by rw [leaves.active]; exact id
  kept := by rw [leaves.active]; exact id
  moved gen active := .inl (leaves.active ▸ active)
  owner := owner
  grows gen _ := by
    rw [leaves.applied, leaves.generations]
    exact ⟨refl _, refl _⟩
  spared _ _ _ inactive := by
    unfold World.Inactive
    rw [leaves.active, leaves.generations, leaves.applied, leaves.written]
    exact ⟨inactive, rfl, rfl, rfl⟩

theorem Leaves.covers (leaves : Leaves world world')
    (through : Through world.log (world.Covers opts rebuild live gen) bound) :
    Through world'.log (world'.Covers opts rebuild live gen) bound := by
  refine (through.leads leaves.log).mono fun event covered => ?_
  unfold World.Covers
  rw [leaves.applied]
  exact covered.mono (refl _) leaves.snapshots

theorem Leaves.passed (leaves : Leaves world world') (passed : world.Passed opts rebuild live bound) :
    world'.Passed opts rebuild live bound :=
  ⟨fun gen active => leaves.covers (passed.active gen (leaves.active ▸ active)),
    fun none => (passed.unset (leaves.active ▸ none)).leads leaves.log⟩

theorem Leaves.sound (leaves : Leaves world world') (sound : world.Sound opts rebuild live)
    (lease : ∀ num, world'.attempt = some num → world'.owner = some num)
    (owner : ∀ num, world'.owner = some num → num < world'.attempts)
    (mark : world'.checkpointSequence = world.checkpointSequence ∨
      world.Passed opts rebuild live world'.checkpointSequence)
    (manifest : ∀ manifest, world'.manifest = some manifest → world'.Loads opts rebuild live manifest.made) :
    world'.Sound opts rebuild live where
  contents := by
    rw [leaves.generations, leaves.applied]
    exact sound.contents
  reserved := by
    rw [leaves.generations, leaves.applied]
    exact sound.reserved
  lease := lease
  owner := owner
  unset none gen := by
    rw [leaves.active] at none
    rw [World.highwater, leaves.generations]
    exact sound.unset none gen
  checkpoint := by
    refine leaves.passed ?_
    rcases mark with same | passed
    · rw [same]
      exact sound.checkpoint
    · exact passed
  highwater gen active := by
    rw [leaves.active] at active
    have highwater : world'.highwater gen = world.highwater gen := by
      rw [World.highwater, World.highwater, leaves.generations]
    rw [highwater]
    exact leaves.covers (sound.highwater gen active)
  manifest := manifest

theorem World.Sound.loads (sound : world.Sound opts rebuild live) (leaves : Leaves world world')
    (same : world'.manifest = world.manifest) : ∀ manifest, world'.manifest = some manifest →
      world'.Loads opts rebuild live manifest.made :=
  fun manifest is => (sound.manifest manifest (same ▸ is)).mono leaves.log leaves.snapshots

/-! ### Commands on one generation -/

structure Touches (mover : Option Nat) (world world' : World Payload Row) (generation : String) : Prop where
  rest : world' = { world with generations := world'.generations, applied := world'.applied, written := world'.written }
  elsewhere : ∀ other, other ≠ generation →
    world'.generations other = world.generations other ∧ world'.applied other = world.applied other
  written : ∀ number, mover ≠ some number → world'.written number = world.written number

/-- Live runs write to a target, and an attempt to the generation that it owns. -/
def World.Authorized (rebuild : RebuildOptions Payload Row) (world : World Payload Row) (mover : Option Nat)
    (generation : String) : Prop :=
  (mover = none ∧ world.Targets rebuild generation) ∨ ∃ number, mover = some number ∧ world.owner = some number ∧
    generation = rebuild.generation ∧ world.Inactive rebuild

theorem World.Inactive.ne (inactive : world.Inactive rebuild) : world.active ≠ some rebuild.generation := by
  obtain ⟨_, is, ne⟩ := inactive
  rw [is]
  exact fun same => ne (some.inj same)

theorem World.Authorized.present (authorized : world.Authorized rebuild mover gen) : world.active ≠ none := by
  rcases authorized with ⟨-, targets⟩ | ⟨_, -, -, -, _, is, -⟩
  · exact targets.1
  · rw [is]
    exact nofun

theorem Touches.respects (touches : Touches mover world world' gen) (authorized : world.Authorized rebuild mover gen)
    (grows : world.Targets rebuild gen → world.applied gen ⊆ world'.applied gen ∧ (world.generations gen).partitions ⊆ (world'.generations gen).partitions)
    : Respects rebuild mover world world' := by
  obtain ⟨rest, elsewhere, written⟩ := touches
  have active : world'.active = world.active := by rw [rest]
  have owner : world'.owner = world.owner := by rw [rest]
  refine
    { log := by rw [rest]; exact world.log.leads_refl
      attempts := by rw [rest]
      checkpoint := by rw [rest]; exact le_refl _
      snapshots := by rw [rest]; exact refl _
      present := by rw [active]; exact id
      kept := by rw [active]; exact id
      moved := fun gen is => .inl (active ▸ is)
      owner := .inl owner
      grows := fun other targets => ?_
      spared := fun num apart owned inactive => ?_ }
  · by_cases same : other = gen
    · subst same
      exact grows ⟨authorized.present, targets⟩
    · rw [(elsewhere other same).1, (elsewhere other same).2]
      exact ⟨refl _, refl _⟩
  have ne : rebuild.generation ≠ gen := by
    rcases authorized with ⟨-, targets⟩ | ⟨_, moves, owns, -, -⟩
    · intro same
      exact inactive.ne (targets.2 same.symm)
    · rw [owned] at owns
      exact absurd (moves.trans owns.symm) apart
  refine ⟨?_, (elsewhere _ ne).1, (elsewhere _ ne).2, written num apart⟩
  unfold World.Inactive
  rw [active]
  exact inactive

theorem Touches.sound (touches : Touches mover world world' gen) (sound : world.Sound opts rebuild live)
    (authorized : world.Authorized rebuild mover gen)
    (contents : ∀ part, (world'.generations gen).rows part = replay opts.maxItemsPerPartition ((world'.applied gen).filter (·.change.partition = part)))
    (reserved : ∀ entry ∈ world'.applied gen, entry.change.partition ∈ (world'.generations gen).partitions)
    (grows : world.active = some gen → world.applied gen ⊆ world'.applied gen)
    (highwater : world.active = some gen → Through world.log (Covered opts rebuild live world.snapshots (world'.applied gen)) (world'.highwater gen))
    : world'.Sound opts rebuild live := by
  obtain ⟨rest, elsewhere, _⟩ := touches
  have active : world'.active = world.active := by rw [rest]
  have owner : world'.owner = world.owner := by rw [rest]
  have log : world'.log = world.log := by rw [rest]
  have snapshots : world'.snapshots = world.snapshots := by rw [rest]
  have mark : world'.checkpointSequence = world.checkpointSequence := by rw [rest]; rfl
  refine
    { contents := fun other part => ?_
      reserved := fun other => ?_
      lease := fun num is => ?_
      owner := fun num is => ?_
      unset := fun none => absurd (active ▸ none) authorized.present
      checkpoint := ⟨fun other is => ?_, fun none => absurd (active ▸ none) authorized.present⟩
      highwater := fun other is => ?_
      manifest := fun manifest is => ?_ }
  · by_cases same : other = gen
    · subst same
      exact contents part
    · rw [(elsewhere other same).1, (elsewhere other same).2]
      exact sound.contents other part
  · by_cases same : other = gen
    · subst same
      exact reserved
    · rw [(elsewhere other same).1, (elsewhere other same).2]
      exact sound.reserved other
  · rw [owner]
    exact sound.lease num (by rw [rest] at is; exact is)
  · rw [owner] at is
    rw [rest]
    exact sound.owner num is
  · rw [active] at is
    unfold World.Covers
    rw [mark, log, snapshots]
    by_cases same : other = gen
    · subst same
      exact (sound.checkpoint.active other is).mono fun event covered => covered.mono (grows is) (refl _)
    · rw [(elsewhere other same).2]
      exact sound.checkpoint.active other is
  · rw [active] at is
    unfold World.Covers
    rw [log, snapshots]
    by_cases same : other = gen
    · subst same
      exact highwater is
    · rw [World.highwater, (elsewhere other same).1, (elsewhere other same).2]
      exact sound.highwater other is
  · rw [log, snapshots]
    exact sound.manifest manifest (by rw [rest] at is; exact is)

/-- The keys are sound, and the others know what they knew. -/
structure Steps (options : WriterOptions Row) (rebuild : RebuildOptions Payload Row) (live : ProjectionOptions Payload Row)
    (mover : Option Nat) (world world' : World Payload Row) : Prop where
  sound : world'.Sound options rebuild live
  respects : Respects rebuild mover world world'

theorem Steps.refl (sound : world.Sound opts rebuild live) : Steps opts rebuild live mover world world :=
  ⟨sound, .refl world⟩

theorem generations_setGeneration (held : Generation) :
    (world.setGeneration gen held).generations gen = held := update_self ..

theorem reserve_steps (sound : world.Sound opts rebuild live) (authorized : world.Authorized rebuild mover gen)
    (part : String) : Steps opts rebuild live mover world (world.reserve opts gen part).2 := by
  unfold World.reserve
  dsimp only
  split
  · exact .refl sound
  split
  · exact .refl sound
  · have touches : Touches mover world (world.setGeneration gen { world.generations gen with
        partitions := (world.generations gen).partitions ++ [part] }) gen :=
      ⟨rfl, fun other ne => ⟨update_of_ne ne _ _, rfl⟩, fun _ _ => rfl⟩
    refine ⟨touches.sound sound authorized (fun place => ?_) (fun entry among => ?_) (fun _ => refl _)
      fun active => ?_, touches.respects authorized fun _ => ⟨refl _, ?_⟩⟩
    · rw [generations_setGeneration]
      exact sound.contents gen place
    · rw [generations_setGeneration]
      exact mem_append_left _ (sound.reserved gen entry among)
    · rw [World.highwater, generations_setGeneration]
      exact sound.highwater gen active
    · rw [generations_setGeneration]
      exact subset_append_left ..

theorem reserve_ok (ok : (world.reserve opts gen part).1 = .ok done) :
    part ∈ ((world.reserve opts gen part).2.generations gen).partitions := by
  unfold World.reserve at ok ⊢
  dsimp only at ok ⊢
  split
  · assumption
  split
  · next absent full => simp [absent, full] at ok
  · rw [generations_setGeneration]
    exact mem_append_right _ (mem_singleton_self _)

theorem replay_snoc (maximum : Nat) (applied : List Applied) (entry : Applied) : replay maximum (applied ++ [entry]) =
      (replay maximum applied).apply entry.sequence entry.change maximum entry.minimumScore := by
  simp [replay]

theorem applied_applyRow (attempt : Option Nat) : (world.applyRow opts attempt gen seq change
    minimumScore).applied gen = world.applied gen ++ [⟨seq, change, minimumScore⟩] :=
  update_self ..

theorem generation_applyRow (attempt : Option Nat) : (world.applyRow opts attempt gen seq change
    minimumScore).generations gen = { world.generations gen with
      rows := update (world.generations gen).rows change.partition
        (((world.generations gen).rows change.partition).apply seq change opts.maxItemsPerPartition
          minimumScore) } := update_self ..

theorem written_applyRow_apart (apart : mover ≠ some num) :
    (world.applyRow opts mover gen seq change minimumScore).written num = world.written num := by
  cases mover with
  | none => rfl
  | some sender => exact update_of_ne (fun same => apart (congrArg some same.symm)) _ _

theorem applyRow_steps (sound : world.Sound opts rebuild live) (authorized : world.Authorized rebuild mover gen)
    (reserved : change.partition ∈ (world.generations gen).partitions) : Steps opts rebuild live mover world
      (world.applyRow opts mover gen seq change minimumScore) := by
  have touches : Touches mover world (world.applyRow opts mover gen seq change minimumScore) gen :=
    ⟨rfl, fun other ne => ⟨update_of_ne ne _ _, update_of_ne ne _ _⟩, fun _ => written_applyRow_apart⟩
  have grows : world.applied gen ⊆
      (world.applyRow opts mover gen seq change minimumScore).applied gen := by
    rw [applied_applyRow]
    exact subset_append_left ..
  refine ⟨touches.sound sound authorized (fun place => ?_) (fun entry among => ?_) (fun _ => grows) fun active => ?_,
    touches.respects authorized fun _ => ⟨grows, ?_⟩⟩
  · rw [generation_applyRow, applied_applyRow, filter_append]
    by_cases same : place = change.partition
    · subst same
      dsimp only
      rw [update_self, filter_cons_of_pos (by simp), filter_nil, replay_snoc, ← sound.contents]
    · dsimp only
      rw [update_of_ne same, filter_cons_of_neg (by simp [Ne.symm same]), filter_nil, append_nil]
      exact sound.contents gen place
  · rw [generation_applyRow]
    rw [applied_applyRow] at among
    rcases mem_append.mp among with among | among
    · exact sound.reserved gen entry among
    · rw [mem_singleton.mp among]
      exact reserved
  · rw [World.highwater, generation_applyRow]
    exact (sound.highwater gen active).mono fun _ covered => covered.mono grows (refl _)
  · rw [generation_applyRow]
    exact refl _

theorem highwater_advanceHighwater :
    (world.advanceHighwater gen seq).highwater gen = max (world.highwater gen) seq := by
  unfold World.advanceHighwater
  split
  · next less =>
    rw [max_eq_right (le_of_lt less)]
    rw [World.highwater, generations_setGeneration]
    rfl
  · next more => rw [Nat.max_eq_left (Nat.le_of_not_lt more)]

theorem applied_advanceHighwater : (world.advanceHighwater gen seq).applied = world.applied := by
  unfold World.advanceHighwater
  split <;> rfl

theorem advanceHighwater_touches : Touches mover world (world.advanceHighwater gen seq) gen := by
  unfold World.advanceHighwater
  split
  · exact ⟨rfl, fun other ne => ⟨update_of_ne ne _ _, rfl⟩, fun _ _ => rfl⟩
  · exact ⟨rfl, fun _ _ => ⟨rfl, rfl⟩, fun _ _ => rfl⟩

theorem advanceHighwater_steps (sound : world.Sound opts rebuild live) (authorized : world.Authorized rebuild mover gen)
    (through : world.active = some gen → Through world.log (world.Covers opts rebuild live gen) seq) :
    Steps opts rebuild live mover world (world.advanceHighwater gen seq) := by
  have held : ((world.advanceHighwater gen seq).generations gen).rows = (world.generations gen).rows ∧
        ((world.advanceHighwater gen seq).generations gen).partitions =
          (world.generations gen).partitions := by
    unfold World.advanceHighwater
    split
    · rw [generations_setGeneration]
      exact ⟨rfl, rfl⟩
    · exact ⟨rfl, rfl⟩
  refine ⟨advanceHighwater_touches.sound sound authorized (fun place => ?_) (fun entry among => ?_) (fun _ => ?_)
    fun active => ?_, advanceHighwater_touches.respects authorized fun _ => ⟨?_, ?_⟩⟩
  · rw [held.1, applied_advanceHighwater]
    exact sound.contents gen place
  · rw [applied_advanceHighwater] at among
    rw [held.2]
    exact sound.reserved gen entry among
  · rw [applied_advanceHighwater]
    exact refl _
  · rw [highwater_advanceHighwater, applied_advanceHighwater]
    exact (sound.highwater gen active).max (through active)
  · rw [applied_advanceHighwater]
    exact refl _
  · rw [held.2]
    exact refl _

theorem World.Inactive.authorized (inactive : world.Inactive rebuild) (owned : world.owner = some num) :
    world.Authorized rebuild (some num) rebuild.generation := .inr ⟨num, rfl, owned, rfl, inactive⟩

theorem World.Inactive.untargeted (inactive : world.Inactive rebuild) : ¬ world.Targets rebuild rebuild.generation :=
  fun targets => inactive.ne (targets.2 rfl)

theorem applied_delete : (world.delete gen part).applied gen =
    (world.applied gen).filter (·.change.partition ≠ part) := update_self ..

theorem generation_delete : (world.delete gen part).generations gen =
    { world.generations gen with
      rows := update (world.generations gen).rows part {} } := update_self ..

section
variable (sound : world.Sound opts rebuild live)
include sound

theorem delete_steps (owned : world.owner = some num) (inactive : world.Inactive rebuild) :
    Steps opts rebuild live (some num) world (world.delete rebuild.generation part) := by
  have touches : Touches (some num) world (world.delete rebuild.generation part) rebuild.generation :=
    ⟨rfl, fun other ne => ⟨update_of_ne ne _ _, update_of_ne ne _ _⟩, fun _ _ => rfl⟩
  have authorized := inactive.authorized owned
  refine ⟨touches.sound sound authorized (fun place => ?_) (fun entry among => ?_)
    (fun active => absurd active inactive.ne) fun active => absurd active inactive.ne,
    touches.respects authorized fun targets => absurd targets inactive.untargeted⟩
  · rw [generation_delete, applied_delete, List.filter_filter]
    by_cases same : place = part
    · subst same
      dsimp only
      rw [update_self, filter_eq_nil_iff.mpr (by simp)]
      rfl
    · dsimp only
      rw [update_of_ne same]
      refine (sound.contents rebuild.generation place).trans (congrArg _ (filter_congr fun entry _ => ?_))
      by_cases here : entry.change.partition = place <;> simp [here, same]
  · rw [generation_delete]
    rw [applied_delete] at among
    exact sound.reserved rebuild.generation entry (mem_filter.mp among).1

theorem World.owns_owner (owns : world.owns gen num = true) : world.owner = some num := by
  unfold World.owns at owns
  simp only [Bool.and_eq_true, decide_eq_true_eq] at owns
  exact sound.lease num owns.2

theorem reset_steps (knows : world.owner = some num → world.Inactive rebuild ∧ world.applied rebuild.generation = [])
    : Steps opts rebuild live (some num) world (world.reset rebuild.generation num).2 := by
  unfold World.reset
  split
  · next owns =>
    have owned := World.owns_owner sound owns
    obtain ⟨inactive, none⟩ := knows owned
    have touches : Touches (some num) world { world.setGeneration rebuild.generation
        { world.generations rebuild.generation with marker := true, highwater := some 0, partitions := [] } with
          written := update world.written num [] } rebuild.generation :=
      ⟨rfl, fun other ne => ⟨update_of_ne ne _ _, rfl⟩,
        fun other apart => update_of_ne (fun same => apart (congrArg some same.symm)) _ _⟩
    have authorized := inactive.authorized owned
    refine ⟨touches.sound sound authorized (fun place => ?_) (fun entry among => ?_)
      (fun active => absurd active inactive.ne) fun active => absurd active inactive.ne,
      touches.respects authorized fun targets => absurd targets inactive.untargeted⟩
    · rw [generations_setGeneration]
      exact sound.contents rebuild.generation place
    change entry ∈ world.applied rebuild.generation at among
    rw [none] at among
    cases among
  · exact .refl sound

/-! ### The lease, the checkpoint and the active generation -/

theorem begin_steps (known : num < world.attempts) :
    Steps opts rebuild live (some num) world (world.begin gen num).2 := by
  unfold World.begin
  split
  · exact .refl sound
  split
  · exact .refl sound
  have leaves : Leaves world { world with rebuilding := some gen, attempt := some num, owner := some num } :=
    ⟨world.log.leads_refl, le_refl _, le_refl _, refl _, rfl, rfl, rfl, rfl⟩
  refine ⟨leaves.sound sound (fun _ is => is) (fun _ is => ?_) (.inl rfl) (sound.loads leaves rfl),
    leaves.respects (.inr ⟨num, rfl, rfl, known⟩)⟩
  rw [← some.inj is]
  exact known

theorem released_steps (rebuilding : Option String) :
    Steps opts rebuild live mover world { world with rebuilding, attempt := none } := by
  have leaves : Leaves world { world with rebuilding, attempt := none } :=
    ⟨world.log.leads_refl, le_refl _, le_refl _, refl _, rfl, rfl, rfl, rfl⟩
  exact ⟨leaves.sound sound nofun sound.owner (.inl rfl) (sound.loads leaves rfl), leaves.respects (.inl rfl)⟩

theorem abandon_steps :
    Steps opts rebuild live mover world (world.abandon gen num) := by
  unfold World.abandon
  split
  · exact released_steps sound none
  · exact .refl sound

theorem apart_steps (leaves : Leaves world world') (attempt : world'.attempt = world.attempt)
    (owner : world'.owner = world.owner)
    (mark : world'.checkpointSequence = world.checkpointSequence ∨
      world.Passed opts rebuild live world'.checkpointSequence)
    (manifest : ∀ manifest, world'.manifest = some manifest → world'.Loads opts rebuild live manifest.made) :
    Steps opts rebuild live mover world world' := by
  refine ⟨leaves.sound sound (fun num is => ?_) (fun num is => ?_) mark manifest, leaves.respects (.inl owner)⟩
  · rw [owner]
    exact sound.lease num (attempt ▸ is)
  · exact lt_of_lt_of_le (sound.owner num (owner ▸ is)) leaves.attempts

end

theorem checkpointSequence_advanceCheckpoint :
    (world.advanceCheckpoint seq).checkpointSequence = max world.checkpointSequence seq := by
  unfold World.advanceCheckpoint
  split
  · next less =>
    rw [max_eq_right (le_of_lt less)]
    rfl
  · next more => rw [Nat.max_eq_left (Nat.le_of_not_lt more)]

theorem advanceCheckpoint_steps (sound : world.Sound opts rebuild live) (passed : world.Passed opts rebuild live seq) :
    Steps opts rebuild live mover world (world.advanceCheckpoint seq) := by
  unfold World.advanceCheckpoint
  split
  · next less =>
    have leaves : Leaves world { world with checkpoint := some seq } :=
      ⟨world.log.leads_refl, le_refl _, le_of_lt less, refl _, rfl, rfl, rfl, rfl⟩
    exact apart_steps sound leaves rfl rfl (.inr passed) (sound.loads leaves rfl)
  · exact .refl sound

theorem advanceActiveCheckpoint_steps (sound : world.Sound opts rebuild live)
    (through : world.active = some gen → Through world.log (world.Covers opts rebuild live gen) seq) :
    Steps opts rebuild live mover world (world.advanceActiveCheckpoint gen seq).2 := by
  unfold World.advanceActiveCheckpoint
  split
  · exact .refl sound
  next active =>
  have active := Decidable.of_not_not active
  refine advanceCheckpoint_steps sound ⟨fun other is => ?_, fun none => ?_⟩
  · rw [active] at is
    cases is
    exact through active
  · rw [active] at none
    cases none

theorem advanceActiveCheckpoint_committed (committed : (world.advanceActiveCheckpoint gen seq).1 = true) :
    seq ≤ (world.advanceActiveCheckpoint gen seq).2.checkpointSequence := by
  unfold World.advanceActiveCheckpoint at committed ⊢
  split
  · next moved => simp [moved] at committed
  · rw [checkpointSequence_advanceCheckpoint]
    exact le_max_right ..

theorem setActiveAbsent_steps (sound : world.Sound opts rebuild live) (initial : String) :
    Steps opts rebuild live mover world { world with active := some (world.active.getD initial) } := by
  cases active : world.active with
  | some gen =>
    have same : { world with active := some ((some gen).getD initial) } = world := by
      rw [getD_some, ← active]
    rw [same]
    exact .refl sound
  | none =>
    have same : Respects rebuild mover world world := .refl world
    refine ⟨{ sound with
        unset := nofun
        checkpoint := ⟨fun gen _ => (sound.checkpoint.unset active).mono fun _ => False.elim, nofun⟩
        highwater := fun gen _ => ?_ }, { same with
        present := fun _ => nofun
        kept := fun same => ?_
        moved := fun _ _ => .inr (.inl active)
        spared := fun num _ _ inactive => ?_ }⟩
    · change Through world.log _ (world.highwater gen)
      rw [sound.unset active gen]
      exact .zero
    · rw [active] at same
      cases same
    · obtain ⟨_, is, -⟩ := inactive
      rw [active] at is
      cases is

theorem publish_steps (sound : world.Sound opts rebuild live) (expected : String)
    (knows : world.owner = some num → world.Inactive rebuild ∧ Through world.log (world.Covers opts rebuild live rebuild.generation) (world.highwater rebuild.generation))
    : Steps opts rebuild live (some num) world (world.publish rebuild.generation expected num).2 := by
  unfold World.publish
  split
  · exact .refl sound
  split
  · exact .refl sound
  next owns =>
  have owned := World.owns_owner sound (by simpa using owns)
  obtain ⟨_, through⟩ := knows owned
  split
  · exact .refl sound
  next highwater is =>
  split
  · exact .refl sound
  next reached =>
  have same : world.highwater rebuild.generation = highwater := by rw [World.highwater, is]; rfl
  refine ⟨{ sound with
      lease := by simp
      unset := by simp
      checkpoint := ⟨fun gen active => ?_, by simp⟩
      highwater := fun gen active => ?_ },
    { log := world.log.leads_refl
      attempts := le_refl _
      checkpoint := Nat.le_of_not_lt reached
      snapshots := refl _
      present := by simp
      kept := fun _ => rfl
      moved := fun gen active => .inr (.inr (some.inj active).symm)
      owner := .inl rfl
      grows := fun _ _ => ⟨refl _, refl _⟩
      spared := fun other apart owns _ => ?_ }⟩
  · cases some.inj active
    rw [same] at through
    exact through
  · cases some.inj active
    exact through
  · rw [owned] at owns
    exact absurd owns apart

end Applik8s.OnlineProjection
