import Applik8s.OnlineProjection.HandOff

/-! Rebuild attempts: what an attempt does with the generation that it owns, and that nobody else does anything with it
meanwhile. -/
namespace Applik8s.OnlineProjection
open Lib List Except Nat
open Streams (Through PageSound ReadContract)
variable {Payload Row : Type} {opts : WriterOptions Row} {rebuild : RebuildOptions Payload Row}
  {live : ProjectionOptions Payload Row} {read : Streams.Source (Content Payload)} {world world' : World Payload Row}

/-- The attempt that a command is sent by, where no lease guards the command. -/
def Request.sender : Request Payload Row → Option Nat
  | .reserve attempt _ _ | .applyRow attempt _ _ _ _ | .advanceHighwater attempt _ _ => attempt
  | .delete attempt _ _ => some attempt
  | _ => none

/-! ### What an attempt knows -/

theorem attempt_agrees (stage' : AttemptStage Payload Row)
    (agrees : (Phase.attempt num stage).Agrees opts rebuild live world)
    (steps : Steps opts rebuild live (some num) world world')
    (since : stage'.isBegun = true → stage.isBegun = true ∨ world'.owner = some num)
    (remembers : stage'.Remembers opts rebuild live world')
    (knows : world'.owner = some num → stage'.Knows opts rebuild live world' num) :
    (Phase.attempt num stage').Agrees opts rebuild live world' := by
  obtain ⟨known, begun, -, -⟩ := agrees
  refine ⟨lt_of_lt_of_le known steps.respects.attempts, fun is => ?_, remembers, knows⟩
  rcases since is with before | owns
  · rcases begun before with owns | two
    · rcases steps.respects.owner with same | ⟨_, moves, is, -⟩
      · exact .inl (same.trans owns)
      · cases moves
        exact .inl is
    · exact .inr (two.trans steps.respects.attempts)
  · exact .inl owns

theorem closing_agrees (agrees : (Phase.attempt num stage).Agrees opts rebuild live world)
    (steps : Steps opts rebuild live (some num) world world') :
    (Phase.attempt num .closing).Agrees opts rebuild live world' :=
  attempt_agrees .closing agrees steps nofun trivial fun _ => trivial

theorem World.Fenced.of {num : Nat} {bound bound' : Nat} (fenced : world.Fenced rebuild num bound)
    (active : world'.active = world.active)
    (applied : world'.applied rebuild.generation = world.applied rebuild.generation)
    (written : world'.written num = world.written num) (above : bound ≤ bound')
    (highwater : world'.highwater rebuild.generation ≤ bound') : world'.Fenced rebuild num bound' where
  inactive := by
    obtain ⟨other, is, ne⟩ := fenced.inactive
    exact ⟨other, active.trans is, ne⟩
  own := by rw [applied, written, fenced.own]
  bounded := by
    rw [applied]
    exact fun entry among => (fenced.bounded entry among).trans above
  ascending := by
    rw [applied]
    exact fenced.ascending
  highwater := highwater

theorem loaded_knows (inactive : world.Inactive rebuild) (empty : world.applied rebuild.generation = [])
    (zero : world.highwater rebuild.generation = 0) (unwritten : world.written num = [])
    (loads : world.Loads opts rebuild live made) :
    (AttemptStage.loaded made.watermark made.segments).Knows opts rebuild live world num := by
  refine ⟨⟨inactive, by rw [empty, unwritten], ?_, ?_, le_refl _⟩, fun _ _ => zero ▸ zero_le _, zero ▸ zero_le _, ?_⟩
  · rw [empty]
    exact nofun
  · rw [empty]
    exact .nil
  · unfold World.Owes
    rw [empty]
    exact loads.owes

theorem World.Inactive.unhurried (inactive : world.Inactive rebuild) (active : world.active = some rebuild.generation) :
    Through world.log (world.Covers opts rebuild live rebuild.generation) seq := absurd active inactive.ne

theorem begin_acquired (acquired : (world.begin gen num).1 = true) : (world.begin gen num).2.owner = some num := by
  unfold World.begin at acquired ⊢
  by_cases other : world.rebuilding.any (· ≠ gen)
  · rw [if_pos other] at acquired
    cases acquired
  rw [if_neg other] at acquired ⊢
  by_cases leased : world.attempt.any (· ≠ num)
  · rw [if_pos leased] at acquired
    cases acquired
  · rw [if_neg leased]

theorem reset_done (done : (world.reset gen num).1 = true) :
    world.owns gen num = true ∧ (world.reset gen num).2 = { world.setGeneration gen
      { world.generations gen with marker := true, highwater := some 0, partitions := [] } with
        written := Function.update world.written num [] } := by
  unfold World.reset at done ⊢
  by_cases owns : world.owns gen num = true
  · rw [if_pos owns]
    exact ⟨owns, rfl⟩
  · rw [if_neg owns] at done
    cases done

theorem publish_refused (refused : (world.publish gen expected num).1 = false) :
    (world.publish gen expected num).2 = world := by
  unfold World.publish at refused ⊢
  by_cases moved : world.active ≠ some expected
  · rw [if_pos moved]
  rw [if_neg moved] at refused ⊢
  by_cases lost : ¬ world.owns gen num = true
  · rw [if_pos lost]
  rw [if_neg lost] at refused ⊢
  cases is : (world.generations gen).highwater with
  | none => rfl
  | some highwater =>
    rw [is] at refused
    dsimp only at refused ⊢
    by_cases behind : highwater < world.checkpointSequence
    · rw [if_pos behind]
    · rw [if_neg behind] at refused
      cases refused

theorem written_applyRow : (world.applyRow opts (some num) gen seq change minimumScore).written num =
      world.written num ++ [⟨seq, change, minimumScore⟩] := Function.update_self ..

theorem World.reserve_leaves (world : World Payload Row) (opts : WriterOptions Row) (gen part : String) :
    let world' := (world.reserve opts gen part).2
    world'.active = world.active ∧ world'.owner = world.owner ∧ world'.log = world.log ∧
      world'.snapshots = world.snapshots ∧ world'.applied = world.applied ∧ world'.written = world.written ∧
        world'.highwater gen = world.highwater gen := by
  unfold World.reserve
  dsimp only
  split
  · exact ⟨rfl, rfl, rfl, rfl, rfl, rfl, rfl⟩
  split
  · exact ⟨rfl, rfl, rfl, rfl, rfl, rfl, rfl⟩
  · refine ⟨rfl, rfl, rfl, rfl, rfl, rfl, ?_⟩
    rw [World.highwater, generations_setGeneration]
    rfl

theorem World.advanceHighwater_leaves (world : World Payload Row) (gen : String) (seq : Nat) :
    let world' := world.advanceHighwater gen seq
    world'.active = world.active ∧ world'.log = world.log ∧ world'.snapshots = world.snapshots ∧
      world'.written = world.written := by
  unfold World.advanceHighwater
  split <;> exact ⟨rfl, rfl, rfl, rfl⟩

/-! ### What it is told -/

section
variable (sound : world.Sound opts rebuild live)
include sound

theorem begin_moves (agrees : (Phase.attempt num (.recalled recovered)).Agrees opts rebuild live world) :
    Moves opts rebuild live (.attempt num (.recalled recovered)) world ((world.begin rebuild.generation num).map .ok id)
      ((Phase.attempt num (.recalled recovered)).answered opts rebuild live
        (.begin rebuild.generation num)) := by
  have steps : Steps opts rebuild live (some num) world (world.begin rebuild.generation num).2 :=
    begin_steps sound agrees.1
  refine ⟨steps, fun acquired is => ?_⟩
  cases acquired with
  | false => exact closing_agrees agrees steps
  | true =>
    exact attempt_agrees (.begun recovered) agrees steps (fun _ => .inr (begin_acquired (ok.inj is)))
      (steps.respects.remembers agrees.2.2.1) fun _ => trivial

theorem delete_moves (agrees : (Phase.attempt num (.deleting recovered (part :: rest))).Agrees opts rebuild live world)
    (granted : world.owner = some num) :
    Moves opts rebuild live (.attempt num (.deleting recovered (part :: rest))) world
      (.ok (), world.delete rebuild.generation part)
      ((Phase.attempt num (.deleting recovered (part :: rest))).answered opts rebuild live
        (.delete num rebuild.generation part)) := by
  obtain ⟨inactive, among⟩ := agrees.2.2.2 granted
  have steps : Steps opts rebuild live (some num) world (world.delete rebuild.generation part) :=
    delete_steps sound granted inactive
  refine ⟨steps, fun _ _ => attempt_agrees (.deleting recovered rest) agrees steps (fun _ => .inl rfl)
    (steps.respects.remembers agrees.2.2.1) fun _ => ⟨inactive, fun entry left => ?_⟩⟩
  rw [applied_delete] at left
  obtain ⟨present, other⟩ := mem_filter.mp left
  exact (mem_cons.mp (among entry present)).resolve_left (of_decide_eq_true other)

theorem reset_moves (agrees : (Phase.attempt num (.deleting recovered [])).Agrees opts rebuild live world) :
    Moves opts rebuild live (.attempt num (.deleting recovered [])) world
      ((world.reset rebuild.generation num).map .ok id)
      ((Phase.attempt num (.deleting recovered [])).answered opts rebuild live
        (.reset rebuild.generation num)) := by
  have empty : world.owner = some num → world.Inactive rebuild ∧ world.applied rebuild.generation = [] := by
    intro owns
    obtain ⟨inactive, among⟩ := agrees.2.2.2 owns
    exact ⟨inactive, eq_nil_iff_forall_not_mem.mpr fun entry present => nomatch among entry present⟩
  have steps : Steps opts rebuild live (some num) world (world.reset rebuild.generation num).2 :=
    reset_steps sound empty
  refine ⟨steps, fun done is => ?_⟩
  cases done with
  | false => exact closing_agrees agrees steps
  | true =>
    obtain ⟨owns, reset⟩ := reset_done (ok.inj is)
    obtain ⟨inactive, none⟩ := empty (World.owns_owner sound owns)
    have zero : (world.reset rebuild.generation num).2.highwater rebuild.generation = 0 := by
      rw [reset]
      change ((world.setGeneration rebuild.generation _).generations rebuild.generation).highwater.getD 0 = 0
      rw [generations_setGeneration]
      rfl
    have unwritten : (world.reset rebuild.generation num).2.written num = [] := by
      rw [reset]
      exact Function.update_self ..
    have inactive : (world.reset rebuild.generation num).2.Inactive rebuild := by
      rw [reset]
      exact inactive
    have none : (world.reset rebuild.generation num).2.applied rebuild.generation = [] := by
      rw [reset]
      exact none
    have remembers := steps.respects.remembers agrees.2.2.1
    cases recovered with
    | none =>
      exact attempt_agrees (.replaying 0 []) agrees steps (fun _ => .inl rfl) loads_nothing
        fun _ => ⟨inactive, none, zero, unwritten⟩
    | some manifest =>
      have loads := remembers manifest rfl
      exact attempt_agrees (.loaded manifest.sourceWatermark manifest.segments) agrees steps (fun _ => .inl rfl)
        ⟨loads, loads.ordered⟩ fun _ => loaded_knows inactive none zero unwritten loads

theorem scan_moves [DecidableEq Payload] [DecidableEq Row]
    (agrees : (Phase.attempt num (.replaying 0 [])).Agrees opts rebuild live world) :
    Moves opts rebuild live (.attempt num (.replaying 0 [])) world (world.perform opts read choice .scan)
      ((Phase.attempt num (.replaying 0 [])).answered opts rebuild live .scan) := by
  let snap : Snapshot Payload :=
    ⟨lastNumber Streams.Envelope.sequence world.log.retained, choice.recordedAt, choice.pages⟩
  have leaves : Leaves world { world with snapshots := world.snapshots ++ [snap] } :=
    ⟨world.log.leads_refl, le_refl _, le_refl _, subset_append_left .., rfl, rfl, rfl, rfl⟩
  have steps : Steps opts rebuild live (some num) world { world with snapshots := world.snapshots ++ [snap] } :=
    apart_steps sound leaves rfl rfl (.inl rfl) (sound.loads leaves rfl)
  refine ⟨steps, ?_⟩
  rintro _ ⟨⟩
  change (Phase.attempt num (AttemptStage.scanned opts rebuild snap)).Agrees opts rebuild live
    { world with snapshots := world.snapshots ++ [snap] }
  unfold AttemptStage.scanned
  split
  · exact closing_agrees agrees steps
  next partitionBy authority =>
  split
  · exact closing_agrees agrees steps
  next segments ok =>
  have loads : World.Loads opts rebuild live { world with snapshots := world.snapshots ++ [snap] }
      ⟨snap.watermark, segments⟩ :=
    loads_snapshot authority (mem_append_right _ (mem_singleton_self _)) Streams.Log.retained_within ok
  refine attempt_agrees _ agrees steps (fun _ => .inl rfl) ⟨loads, loads.ordered⟩ fun owns => ?_
  obtain ⟨inactive, empty, zero, unwritten⟩ := agrees.2.2.2 owns
  have inactive : World.Inactive rebuild { world with snapshots := world.snapshots ++ [snap] } := inactive
  exact loaded_knows inactive empty zero unwritten loads

end

theorem replay_moves (contract : ReadContract read) (sound : world.Sound opts rebuild live)
    (agrees : (Phase.attempt num (.replaying afterSequence segments)).Agrees opts rebuild live world) :
    Moves opts rebuild live (.attempt num (.replaying afterSequence segments)) world
      (.ok (read world.log afterSequence limit), world)
      ((Phase.attempt num (.replaying afterSequence segments)).answered opts rebuild live
        (.read afterSequence limit)) := by
  refine moves_look sound ?_
  change (Phase.attempt num (AttemptStage.read opts rebuild afterSequence segments _)).Agrees opts rebuild live world
  unfold AttemptStage.read
  split
  · exact closing_agrees agrees (.refl sound)
  next near =>
  split
  · exact closing_agrees agrees (.refl sound)
  next further ok =>
  have loads : world.Loads opts rebuild live ⟨(read world.log afterSequence limit).nextSequence, further⟩ :=
    loads_page contract agrees.2.2.1 (Nat.le_of_not_lt near) ok
  split
  · refine attempt_agrees _ agrees (.refl sound) (fun _ => .inl rfl) ⟨loads, loads.ordered⟩ fun owns => ?_
    obtain ⟨inactive, empty, zero, unwritten⟩ := agrees.2.2.2 owns
    exact loaded_knows inactive empty zero unwritten loads
  · exact attempt_agrees _ agrees (.refl sound) (fun _ => .inl rfl) loads agrees.2.2.2

theorem writing_highwater_moves (sound : world.Sound opts rebuild live)
    (agrees : (Phase.attempt num (.writing made left goal)).Agrees opts rebuild live world) :
    Moves opts rebuild live (.attempt num (.writing made left goal)) world
      (.ok (world.highwater rebuild.generation), world)
      ((Phase.attempt num (.writing made left goal)).answered opts rebuild live
        (.highwater rebuild.generation)) := by
  refine moves_look sound ?_
  obtain ⟨loads, ordered⟩ := agrees.2.2.1
  cases left with
  | nil =>
    refine attempt_agrees (.caught made goal (world.highwater rebuild.generation)) agrees (.refl sound) (fun _ => .inl rfl)
      loads fun owns => ?_
    obtain ⟨fenced, -, within, owes⟩ := agrees.2.2.2 owns
    exact ⟨fenced, rfl, within, owes⟩
  | cons event left =>
    change (Phase.attempt num (if event.envelope.sequence < world.highwater rebuild.generation then
      .writing made left goal else .rows made event left goal event.rows)).Agrees opts rebuild live world
    split
    · next skipped =>
      refine attempt_agrees _ agrees (.refl sound) (fun _ => .inl rfl)
        ⟨loads, (pairwise_cons.mp ordered.ascending).2, fun other among => ordered.bounded other (.tail _ among)⟩
        fun owns => ?_
      -- What is left to the owner stands at the high-water mark or above.
      have := (agrees.2.2.2 owns).2.1 event mem_cons_self
      omega
    · refine attempt_agrees _ agrees (.refl sound) (fun _ => .inl rfl) ⟨loads, ordered⟩ fun owns => ?_
      obtain ⟨fenced, ahead, -, owes⟩ := agrees.2.2.2 owns
      have reached := ahead event mem_cons_self
      exact ⟨fenced.of rfl rfl rfl reached reached, owes, .all⟩

theorem caught_highwater_moves (sound : world.Sound opts rebuild live)
    (agrees : (Phase.attempt num (.caught made goal highwater)).Agrees opts rebuild live world) :
    Moves opts rebuild live (.attempt num (.caught made goal highwater)) world
      (.ok (world.highwater rebuild.generation), world)
      ((Phase.attempt num (.caught made goal highwater)).answered opts rebuild live
        (.highwater rebuild.generation)) := by
  refine moves_look sound ?_
  refine attempt_agrees (.caught made goal (world.highwater rebuild.generation)) agrees (.refl sound) (fun _ => .inl rfl)
    agrees.2.2.1 fun owns => ?_
  obtain ⟨fenced, is, within, owes⟩ := agrees.2.2.2 owns
  exact ⟨fenced, rfl, is ▸ within, owes⟩

theorem catchUp_moves (contract : ReadContract read) (sound : world.Sound opts rebuild live)
    (agrees : (Phase.attempt num (.caught made goal highwater)).Agrees opts rebuild live world) :
    Moves opts rebuild live (.attempt num (.caught made goal highwater)) world
      (.ok (read world.log highwater limit), world)
      ((Phase.attempt num (.caught made goal highwater)).answered opts rebuild live (.read highwater limit)) := by
  refine moves_look sound ?_
  change (Phase.attempt num (AttemptStage.next rebuild made highwater _)).Agrees opts rebuild live world
  unfold AttemptStage.next
  split
  · exact closing_agrees agrees (.refl sound)
  next near =>
  split
  · exact closing_agrees agrees (.refl sound)
  next events ok =>
  obtain ⟨ascending, above⟩ := Streams.read_items contract world.log highwater limit
  obtain ⟨envelopes, -⟩ := projectEvents_ok ok
  have inside : ∀ event ∈ events, highwater < event.envelope.sequence ∧
      event.envelope.sequence ≤ (read world.log highwater limit).nextSequence :=
    fun event among => above event.envelope (envelopes ▸ mem_map_of_mem among)
  rw [← envelopes] at ascending
  simp only [pairwise_map] at ascending
  refine attempt_agrees _ agrees (.refl sound) (fun _ => .inl rfl)
    ⟨agrees.2.2.1, ascending.imp le_of_lt, fun event among => (inside event among).2⟩ fun owns => ?_
  obtain ⟨fenced, rfl, within, owes⟩ := agrees.2.2.2 owns
  exact ⟨fenced, fun event among => le_of_lt (inside event among).1, contract.forward ..,
    owes_page contract (within.trans owes.through.within) (Nat.le_of_not_lt near) ok owes within⟩

section
variable (sound : world.Sound opts rebuild live)
include sound

theorem putManifest_moves [DecidableEq Payload] [DecidableEq Row]
    (agrees : (Phase.attempt num stage).Agrees opts rebuild live world)
    (loads : world.Loads opts rebuild live manifest.made) :
    Moves opts rebuild live (.attempt num stage) world (world.putManifest manifest)
      ((Phase.attempt num stage).answered opts rebuild live (.putManifest manifest)) := by
  unfold World.putManifest
  split
  · have leaves : Leaves world { world with manifest := some manifest } :=
      ⟨world.log.leads_refl, le_refl _, le_refl _, List.Subset.refl _, rfl, rfl, rfl, rfl⟩
    have steps : ∀ mover, Steps opts rebuild live mover world { world with manifest := some manifest } :=
      fun mover => apart_steps sound leaves rfl rfl (.inl rfl) fun kept is => by
        cases is
        exact loads
    exact ⟨steps (some num), fun _ _ => (steps none).respects.agrees (.inr nofun) agrees⟩
  · split
    · exact moves_look sound agrees
    · exact ⟨.refl sound, nofun⟩

theorem publish_moves (agrees : (Phase.attempt num (.writing made [] goal)).Agrees opts rebuild live world) :
    Moves opts rebuild live (.attempt num (.writing made [] goal)) world
      ((world.publish rebuild.generation expected num).map .ok id)
      ((Phase.attempt num (.writing made [] goal)).answered opts rebuild live
        (.publish rebuild.generation expected num)) := by
  have steps : Steps opts rebuild live (some num) world (world.publish rebuild.generation expected num).2 :=
    publish_steps sound expected fun owns => by
      obtain ⟨fenced, -, within, owes⟩ := agrees.2.2.2 owns
      exact ⟨fenced.inactive, owes.through.less within⟩
  refine ⟨steps, fun published is => ?_⟩
  cases published with
  | true => exact closing_agrees agrees steps
  | false =>
    change (Phase.attempt num (.writing made [] goal)).Agrees opts rebuild live
      (world.publish rebuild.generation expected num).2
    rw [publish_refused (ok.inj is)]
    exact agrees

theorem advance_goal_moves (agrees : (Phase.attempt num (.caught made goal highwater)).Agrees opts rebuild live world)
    (granted : world.owner = some num) : Moves opts rebuild live (.attempt num (.caught made goal highwater)) world
      (.ok (), world.advanceHighwater rebuild.generation goal)
      ((Phase.attempt num (.caught made goal highwater)).answered opts rebuild live
        (.advanceHighwater (some num) rebuild.generation goal)) := by
  obtain ⟨fenced, is, within, owes⟩ := agrees.2.2.2 granted
  have steps : Steps opts rebuild live (some num) world (world.advanceHighwater rebuild.generation goal) :=
    advanceHighwater_steps sound (fenced.inactive.authorized granted) fenced.inactive.unhurried
  have reached : (world.advanceHighwater rebuild.generation goal).highwater rebuild.generation = goal := by
    rw [highwater_advanceHighwater, is, max_eq_right within]
  obtain ⟨active, log, snapshots, written⟩ := world.advanceHighwater_leaves rebuild.generation goal
  refine ⟨steps, fun _ _ => attempt_agrees (.writing made [] goal) agrees steps (fun _ => .inl rfl)
    ⟨steps.respects.remembers agrees.2.2.1, .nil, nofun⟩ fun _ => ⟨?_, nofun, reached.le, ?_⟩⟩
  · rw [reached]
    exact fenced.of active (by rw [applied_advanceHighwater]) (by rw [written]) (is ▸ within) reached.le
  unfold World.Owes at owes ⊢
  rw [applied_advanceHighwater, log, snapshots]
  exact owes

theorem reserve_moves (agrees : (Phase.attempt num (.rows made event left goal due)).Agrees opts rebuild live world)
    (granted : world.owner = some num) (first : First opts due change) :
    Moves opts rebuild live (.attempt num (.rows made event left goal due)) world
      (world.reserve opts rebuild.generation change.partition)
      ((Phase.attempt num (.rows made event left goal due)).answered opts rebuild live
        (.reserve (some num) rebuild.generation change.partition)) := by
  obtain ⟨fenced, owes, remains⟩ := agrees.2.2.2 granted
  have steps : Steps opts rebuild live (some num) world (world.reserve opts rebuild.generation change.partition).2 :=
    reserve_steps sound (fenced.inactive.authorized granted) change.partition
  obtain ⟨active, -, log, snapshots, applied, written, highwater⟩ :=
    world.reserve_leaves opts rebuild.generation change.partition
  refine ⟨steps, fun _ ok => attempt_agrees (.reserved made event left goal due) agrees steps (fun _ => .inl rfl)
    (steps.respects.remembers agrees.2.2.1) fun _ => ⟨?_, ?_, ?_, fun other also => ?_⟩⟩
  · exact fenced.of active (by rw [applied]) (by rw [written]) (le_refl _) (highwater ▸ fenced.highwater)
  · unfold World.Owes at owes ⊢
    rw [applied, log, snapshots]
    exact owes
  · rw [applied]
    exact remains
  · obtain ⟨_, _, rfl, is⟩ := first
    obtain ⟨_, _, same, is'⟩ := also
    cases same
    rw [is] at is'
    cases is'
    exact reserve_ok ok

theorem advance_event_moves
    (agrees : (Phase.attempt num (.rows made event left goal [])).Agrees opts rebuild live world)
    (granted : world.owner = some num) : Moves opts rebuild live (.attempt num (.rows made event left goal [])) world
      (.ok (), world.advanceHighwater rebuild.generation event.envelope.sequence)
      ((Phase.attempt num (.rows made event left goal [])).answered opts rebuild live
        (.advanceHighwater (some num) rebuild.generation event.envelope.sequence)) := by
  obtain ⟨fenced, owes, remains⟩ := agrees.2.2.2 granted
  obtain ⟨loads, ordered⟩ := agrees.2.2.1
  have steps : Steps opts rebuild live (some num) world
      (world.advanceHighwater rebuild.generation event.envelope.sequence) :=
    advanceHighwater_steps sound (fenced.inactive.authorized granted) fenced.inactive.unhurried
  have reached : (world.advanceHighwater rebuild.generation event.envelope.sequence).highwater rebuild.generation =
      event.envelope.sequence := by
    rw [highwater_advanceHighwater, max_eq_right fenced.highwater]
  obtain ⟨active, log, snapshots, written⟩ := world.advanceHighwater_leaves rebuild.generation event.envelope.sequence
  obtain ⟨above, rest⟩ := pairwise_cons.mp ordered.ascending
  refine ⟨steps, fun _ _ => attempt_agrees (.writing made left goal) agrees steps (fun _ => .inl rfl)
    ⟨loads.mono steps.respects.log steps.respects.snapshots, rest, fun other among => ordered.bounded other (.tail _ among)⟩
    fun _ => ⟨?_, ?_, ?_, ?_⟩⟩
  · rw [reached]
    exact fenced.of active (by rw [applied_advanceHighwater]) (by rw [written]) (le_refl _) reached.le
  · rw [reached]
    exact above
  · rw [reached]
    exact ordered.bounded event mem_cons_self
  · unfold World.Owes at owes ⊢
    rw [applied_advanceHighwater, log, snapshots]
    exact owes.next remains.held

theorem applyRow_moves
    (agrees : (Phase.attempt num (.reserved made event left goal due)).Agrees opts rebuild live world)
    (granted : world.owner = some num) (first : First opts due change) :
    Moves opts rebuild live (.attempt num (.reserved made event left goal due)) world
      (.ok (), world.applyRow opts (some num) rebuild.generation event.envelope.sequence change minimumScore)
      ((Phase.attempt num (.reserved made event left goal due)).answered opts rebuild live
        (.applyRow (some num) rebuild.generation event.envelope.sequence change minimumScore)) := by
  obtain ⟨fenced, owes, remains, reserves⟩ := agrees.2.2.2 granted
  have steps : Steps opts rebuild live (some num) world
      (world.applyRow opts (some num) rebuild.generation event.envelope.sequence change minimumScore) :=
    applyRow_steps sound (fenced.inactive.authorized granted) (reserves change first)
  obtain ⟨_, rest, rfl, is⟩ := first
  refine ⟨steps, fun _ _ => attempt_agrees (.rows made event left goal rest) agrees steps (fun _ => .inl rfl)
    (steps.respects.remembers agrees.2.2.1) fun _ => ⟨⟨fenced.inactive, ?_, ?_, ?_, ?_⟩, ?_, ?_⟩⟩
  · rw [applied_applyRow, fenced.own]
    exact written_applyRow.symm
  · rw [applied_applyRow]
    rintro entry among
    rcases mem_append.mp among with among | among
    · exact fenced.bounded entry among
    · rw [mem_singleton.mp among]
  · rw [applied_applyRow]
    refine pairwise_append.mpr ⟨fenced.ascending, pairwise_singleton .., fun entry among last is => ?_⟩
    rw [mem_singleton.mp is]
    exact fenced.bounded entry among
  · rw [World.highwater, generation_applyRow]
    exact fenced.highwater
  · unfold World.Owes at owes ⊢
    rw [applied_applyRow]
    exact owes.mono (subset_append_left ..) world.log.leads_refl (List.Subset.refl _)
  · rw [applied_applyRow]
    exact remains.next is rfl rfl

end

theorem attempt_moves [DecidableEq Payload] [DecidableEq Row] (contract : ReadContract read)
    (sound : world.Sound opts rebuild live) (agrees : (Phase.attempt num stage).Agrees opts rebuild live world)
    (permits : (Phase.attempt num stage).permits opts rebuild req)
    (granted : ∀ sender, req.sender = some sender → world.owner = some sender) :
    Moves opts rebuild live (.attempt num stage) world (world.perform opts read choice req)
      ((Phase.attempt num stage).answered opts rebuild live req) := by
  cases req with
  | rebuildState => exact moves_look sound agrees
  | renew => exact moves_look sound agrees
  | abandon gen sender =>
    have steps : Steps opts rebuild live (some num) world (world.abandon gen sender) := abandon_steps sound
    exact ⟨steps, fun _ _ => closing_agrees agrees steps⟩
  | setActiveAbsent =>
    cases stage with
    | named =>
      have steps : Steps opts rebuild live (some num) world _ := setActiveAbsent_steps sound opts.initialGeneration
      exact ⟨steps, fun _ _ => attempt_agrees .named agrees steps nofun trivial fun _ => trivial⟩
    | _ => exact False.elim permits
  | setCheckpointAbsent =>
    cases stage with
    | named =>
      have same : ({ world with checkpoint := some (world.checkpoint.getD 0) } : World Payload Row).checkpointSequence =
          world.checkpointSequence := rfl
      have leaves : Leaves world { world with checkpoint := some (world.checkpoint.getD 0) } :=
        ⟨world.log.leads_refl, le_refl _, same.ge, List.Subset.refl _, rfl, rfl, rfl, rfl⟩
      have steps : Steps opts rebuild live (some num) world
          { world with checkpoint := some (world.checkpoint.getD 0) } :=
        apart_steps sound leaves rfl rfl (.inl same) (sound.loads leaves rfl)
      exact ⟨steps, fun _ _ => attempt_agrees .named agrees steps nofun trivial fun _ => trivial⟩
    | _ => exact False.elim permits
  | readManifest =>
    cases stage with
    | named =>
      exact moves_look sound (attempt_agrees (.recalled world.manifest) agrees (.refl sound) nofun sound.manifest
        fun _ => trivial)
    | _ => exact False.elim permits
  | active =>
    cases stage with
    | recalled => exact moves_look sound agrees
    | begun recovered =>
      refine moves_look sound ?_
      change (Phase.attempt num (if world.active = some rebuild.generation ∨ world.active = none then .closing
        else .resetting recovered)).Agrees opts rebuild live world
      split
      · exact closing_agrees agrees (.refl sound)
      next other =>
      refine attempt_agrees _ agrees (.refl sound) (fun _ => .inl rfl) agrees.2.2.1 fun _ => ?_
      cases active : world.active with
      | none => exact absurd (.inr active) other
      | some gen => exact ⟨gen, active, fun same => other (.inl (by rw [active, same]))⟩
    | _ => exact False.elim permits
  | begin =>
    cases stage with
    | recalled =>
      obtain ⟨rfl, rfl⟩ := permits
      exact begin_moves sound agrees
    | _ => exact False.elim permits
  | members gen =>
    cases stage with
    | resetting recovered =>
      obtain rfl : gen = rebuild.generation := permits
      exact moves_look sound (attempt_agrees (.deleting recovered _) agrees (.refl sound) (fun _ => .inl rfl)
        agrees.2.2.1 fun owns => ⟨agrees.2.2.2 owns, sound.reserved rebuild.generation⟩)
    | _ => exact False.elim permits
  | delete sender =>
    cases stage with
    | deleting =>
      obtain ⟨rfl, rfl, _, rfl⟩ := permits
      exact delete_moves sound agrees (granted sender rfl)
    | _ => exact False.elim permits
  | reset =>
    cases stage with
    | deleting =>
      obtain ⟨rfl, rfl, rfl⟩ := permits
      exact reset_moves sound agrees
    | _ => exact False.elim permits
  | scan =>
    cases stage with
    | replaying =>
      obtain ⟨rfl, rfl⟩ := permits
      exact scan_moves sound agrees
    | _ => exact False.elim permits
  | read afterSequence limit =>
    cases stage with
    | replaying behind =>
      obtain rfl : afterSequence = behind := permits
      exact replay_moves contract sound agrees
    | caught made goal highwater =>
      obtain rfl : afterSequence = highwater := permits
      exact catchUp_moves contract sound agrees
    | _ => exact False.elim permits
  | highwater gen =>
    cases stage with
    | writing =>
      obtain rfl : gen = rebuild.generation := permits
      exact writing_highwater_moves sound agrees
    | caught =>
      obtain rfl : gen = rebuild.generation := permits
      exact caught_highwater_moves sound agrees
    | _ => exact False.elim permits
  | putManifest =>
    cases stage with
    | writing =>
      obtain ⟨rfl, watermark, segments⟩ := permits
      refine putManifest_moves sound agrees ?_
      rw [Manifest.made, watermark, segments]
      exact agrees.2.2.1.1
    | caught =>
      obtain ⟨watermark, segments⟩ := permits
      refine putManifest_moves sound agrees ?_
      rw [Manifest.made, watermark, segments]
      exact agrees.2.2.1
    | _ => exact False.elim permits
  | publish =>
    cases stage with
    | writing =>
      obtain ⟨rfl, rfl, rfl⟩ := permits
      exact publish_moves sound agrees
    | _ => exact False.elim permits
  | advanceHighwater =>
    cases stage with
    | caught =>
      obtain ⟨rfl, rfl, rfl⟩ := permits
      exact advance_goal_moves sound agrees (granted num rfl)
    | rows =>
      obtain ⟨rfl, rfl, rfl, rfl⟩ := permits
      exact advance_event_moves sound agrees (granted num rfl)
    | _ => exact False.elim permits
  | reserve =>
    cases stage with
    | rows =>
      obtain ⟨rfl, rfl, _, first, rfl⟩ := permits
      exact reserve_moves sound agrees (granted num rfl) first
    | _ => exact False.elim permits
  | applyRow =>
    cases stage with
    | reserved =>
      obtain ⟨rfl, rfl, first, rfl⟩ := permits
      exact applyRow_moves sound agrees (granted num rfl) first
    | _ => exact False.elim permits
  | _ => exact False.elim permits

end Applik8s.OnlineProjection
