import Applik8s.Batches.Membership

/-! Runs of batch processors, any number of them at once: what each run and each of its workers knows of the groups that
were stored, and that their steps keep the store sound. -/
namespace Applik8s.Batches
open Lib Streams Processors List
open List.Subset (refl)
variable {consumer : Consumer} {read : Source Content} {system : System} {group : Group} {batch : Batch} {run : Run}
  {frozen frozen' : List Group} {finished finished' : List Batch}

/-! ### What runs know -/

/-- A worker is at a batch of its group, and stores that it is complete once it is finished. -/
def Worker.Knows (finished : List Batch) (group : Group) : Worker → Prop
  | .busy _ batch (.marking _) => batch ∈ group.batches ∧ batch ∈ finished
  | .busy _ batch _ => batch ∈ group.batches
  | .idle | .gone => True

structure Pool.Knows (finished : List Batch) (group : Group) (pool : Pool) : Prop where
  batches : ∀ batch ∈ pool.batches, batch ∈ group.batches
  workers : ∀ worker ∈ pool.workers, worker.Knows finished group

def Stage.Knows (consumer : Consumer) (frozen : List Group) : Stage → Prop
  | .freezing _ behind group _ => group.Sound consumer ∧ group.completedBatchIds = [] ∧
      ∀ event ∈ group.events, behind < event.sequence
  | .working _ group _ | .completing _ group _ => group.fresh ∈ frozen
  | _ => True

structure Run.Knows (consumer : Consumer) (frozen : List Group) (finished : List Batch) (run : Run) : Prop where
  stage : run.stage.Knows consumer frozen
  pool : ∀ groupId pool, run.pool = some (groupId, pool) → ∃ group ∈ frozen, pool.Knows finished group

theorem Worker.Knows.mono {worker : Worker} (knows : worker.Knows finished group) (more : finished ⊆ finished') :
    worker.Knows finished' group := by
  cases worker with
  | idle | gone => trivial
  | busy _ _ work =>
    cases work with
    | marking res => exact ⟨knows.1, more knows.2⟩
    | _ => exact knows

theorem Run.Knows.mono (knows : run.Knows consumer frozen finished) (more : frozen ⊆ frozen')
    (also : finished ⊆ finished') : run.Knows consumer frozen' finished' where
  stage := by
    have stage := knows.stage
    cases is : run.stage with
    | working index group exhausted | completing index group exhausted =>
      rw [is] at stage
      exact more stage
    | freezing =>
      rw [is] at stage
      exact stage
    | _ => trivial
  pool groupId pool is := by
    obtain ⟨group, among, batches, workers⟩ := knows.pool groupId pool is
    exact ⟨group, more among, batches, fun worker present => (workers worker present).mono also⟩

theorem Run.Knows.fails (knows : run.Knows consumer frozen finished) (msg : String) :
    (run.fails msg).Knows consumer frozen finished := ⟨trivial, knows.pool⟩

theorem Run.Knows.throws (knows : run.Knows consumer frozen finished) (thrown : Option String) :
    (run.throws thrown).Knows consumer frozen finished := by
  cases thrown with
  | none => exact knows
  | some msg =>
    change (if run.isOver then run else run.fails msg).Knows consumer frozen finished
    split
    · exact knows
    · exact knows.fails msg

theorem Run.Knows.works (index : Nat) (exhausted : Bool) (among : group.fresh ∈ frozen) :
    (run.works index group exhausted).Knows consumer frozen finished where
  stage := among
  pool groupId pool is := by
    cases is
    refine ⟨group.fresh, among, fun batch pending => (mem_filter.mp pending).1, fun worker present => ?_⟩
    obtain rfl := (mem_replicate.mp present).2
    trivial

/-! ### A run goes on -/

/-- Behind which sequence the group was read that a run is about to store. -/
def Stage.behind : Stage → Option Nat
  | .freezing _ behind _ _ => some behind
  | _ => none

/-- The batch that a worker is about to pass to the handler. -/
def Worker.decodes : Worker → Option Batch
  | .busy _ batch (.decoding _) => some batch
  | _ => none

/-- A group is stored right behind the checkpoint, where one is; a batch is first passed while its group is stored. -/
def Timely (system : System) : Label → Prop
  | .main index failure effective => ∀ run ∈ system.runs[index]?, ∀ behind ∈ run.stage.behind,
      system.group = none → failure = none ∨ effective = true → behind = system.checkpoint
  | .work index place (.decoded (.ok _)) => ∀ run ∈ system.runs[index]?, ∀ entry ∈ run.pool,
      ∀ worker ∈ entry.2.workers[place]?, ∀ batch ∈ worker.decodes,
        batch ∈ system.passed ∨ ∃ group ∈ system.group, batch ∈ group.batches
  | _ => True

instance Timely.decidable (system : System) (label : Label) : Decidable (Timely system label) :=
  match label with
  | .main index failure effective =>
    inferInstanceAs (Decidable (∀ run ∈ system.runs[index]?, ∀ behind ∈ run.stage.behind,
      system.group = none → failure = none ∨ effective = true → behind = system.checkpoint))
  | .work index place (.decoded (.ok _)) =>
    inferInstanceAs (Decidable (∀ run ∈ system.runs[index]?, ∀ entry ∈ run.pool,
      ∀ worker ∈ entry.2.workers[place]?, ∀ batch ∈ worker.decodes,
        batch ∈ system.passed ∨ ∃ group ∈ system.group, batch ∈ group.batches))
  | .append _ | .retain _ | .start _ | .crash _ | .work _ _ .take | .work _ _ (.decoded (.error _))
  | .work _ _ (.handled _) | .work _ _ .woken | .work _ _ (.buried _) | .work _ _ (.marked _ _) =>
    inferInstanceAs (Decidable True)

structure Kept (consumer : Consumer) (system after : System) : Prop where
  sound : after.Sound consumer
  runs : after.runs = system.runs
  frozen : system.frozen ⊆ after.frozen
  finished : system.finished ⊆ after.finished

theorem Kept.refl (sound : sys.Sound consumer) : Kept consumer sys sys :=
  ⟨sound, rfl, List.Subset.refl _, List.Subset.refl _⟩

theorem freezeBatchGroup_leaves (sys : System) (group : Group) : let after := (sys.freezeBatchGroup group).2
    after.runs = sys.runs ∧ sys.frozen ⊆ after.frozen ∧ after.finished = sys.finished := by
  unfold System.freezeBatchGroup
  split
  · exact ⟨rfl, refl _, rfl⟩
  · exact ⟨rfl, subset_append_left .., rfl⟩

theorem completeBatchGroup_leaves (sys : System) (groupId : String) (seq : Nat) :
    let after := (sys.completeBatchGroup groupId seq).2
    after.runs = sys.runs ∧ after.frozen = sys.frozen ∧ after.finished = sys.finished := by
  unfold System.completeBatchGroup
  split
  · exact ⟨rfl, rfl, rfl⟩
  · split <;> exact ⟨rfl, rfl, rfl⟩

theorem freezeBatchGroup_kept (sound : sys.Sound consumer) (proper : group.Sound consumer)
    (fresh : group.completedBatchIds = []) (above : ∀ event ∈ group.events, behind < event.sequence)
    (timely : sys.group = none → behind = sys.checkpoint) :
    Kept consumer sys (sys.freezeBatchGroup group).2 := by
  obtain ⟨runs, frozen, finished⟩ := freezeBatchGroup_leaves sys group
  exact ⟨(sound.freeze proper fresh above timely).1, runs, frozen, finished ▸ refl _⟩

theorem completeBatchGroup_kept (distinct : Function.Injective consumer.sha256) (sound : sys.Sound consumer)
    (among : group.fresh ∈ sys.frozen) :
    Kept consumer sys (sys.completeBatchGroup group.id group.lastSequence).2 := by
  obtain ⟨runs, frozen, finished⟩ := completeBatchGroup_leaves sys group.id group.lastSequence
  exact ⟨sound.complete distinct among, runs, frozen ▸ refl _, finished ▸ refl _⟩

theorem reads_knows (contract : ReadContract read) (index behind limit : Nat)
    (knows : run.Knows consumer frozen finished) :
    (run.reads consumer index behind (read system.log behind limit)).Knows consumer frozen finished := by
  unfold Run.reads
  split
  · exact knows.fails _
  split
  · exact ⟨trivial, knows.pool⟩
  · next group is =>
    obtain ⟨ascending, above⟩ := read_items contract system.log behind limit
    obtain ⟨proper, fresh, inside⟩ := freezeStreamBatchGroup_sound ascending is
    exact ⟨⟨proper, fresh, fun event among => (above event (inside event among)).1⟩, knows.pool⟩

theorem join_knows (index : Nat) (exhausted : Bool) (pool : Pool) (among : group.fresh ∈ frozen)
    (knows : run.Knows consumer frozen finished) :
    (run.join consumer index group exhausted pool).Knows consumer frozen finished := by
  unfold Run.join
  split
  · exact knows.fails _
  · exact ⟨among, knows.pool⟩

theorem turns_knows (index mark : Nat) (exhausted : Bool) (knows : run.Knows consumer frozen finished) :
    (run.turns index mark exhausted).Knows consumer frozen finished := by
  refine ⟨?_, knows.pool⟩
  unfold Run.turns
  split
  · trivial
  · split <;> trivial

theorem goesOn_keeps (distinct : Function.Injective consumer.sha256) (contract : ReadContract read)
    (sound : sys.Sound consumer) (knows : run.Knows consumer sys.frozen sys.finished)
    (err : Option String) (effective : Bool)
    (timely : ∀ index behind group exhausted, run.stage = .freezing index behind group exhausted →
      sys.group = none → err = none ∨ effective = true → behind = sys.checkpoint) :
    Kept consumer sys (sys.goesOn consumer read run err effective).1 ∧
      (sys.goesOn consumer read run err effective).2.Knows consumer
        (sys.goesOn consumer read run err effective).1.frozen
        (sys.goesOn consumer read run err effective).1.finished := by
  have stage := knows.stage
  unfold System.goesOn
  cases is : run.stage with
  | ended => exact ⟨.refl sound, knows⟩
  | working index group exhausted =>
    rw [is] at stage
    dsimp only
    split
    · refine ⟨.refl sound, ?_⟩
      split
      · exact join_knows index exhausted _ stage knows
      · exact knows
    · exact ⟨.refl sound, knows⟩
  | freezing index behind group exhausted =>
    rw [is] at stage
    obtain ⟨proper, fresh, above⟩ := stage
    cases err with
    | none =>
      have now := fun none => timely index behind group exhausted is none (.inl rfl)
      exact ⟨freezeBatchGroup_kept sound proper fresh above now,
        .works index exhausted (sound.freeze proper fresh above now).2⟩
    | some msg =>
      dsimp only
      split
      · next took =>
        have kept := freezeBatchGroup_kept sound proper fresh above fun none =>
          timely index behind group exhausted is none (.inr took)
        exact ⟨kept, (knows.mono kept.frozen kept.finished).fails msg⟩
      · exact ⟨.refl sound, knows.fails msg⟩
  | completing index group exhausted =>
    rw [is] at stage
    have kept := completeBatchGroup_kept distinct sound stage
    have known := knows.mono kept.frozen kept.finished
    cases err with
    | none =>
      dsimp only
      generalize sys.completeBatchGroup group.id group.lastSequence = out at kept known
      obtain ⟨done, _⟩ := out
      cases done with
      | true => exact ⟨kept, turns_knows index group.lastSequence exhausted known⟩
      | false => exact ⟨kept, known.fails _⟩
    | some msg =>
      dsimp only
      split
      · exact ⟨kept, known.fails msg⟩
      · exact ⟨.refl sound, knows.fails msg⟩
  | preparing =>
    cases err with
    | none => exact ⟨.refl sound, trivial, knows.pool⟩
    | some msg => exact ⟨.refl sound, knows.fails msg⟩
  | loading =>
    cases err with
    | none => exact ⟨.refl sound, trivial, knows.pool⟩
    | some msg => exact ⟨.refl sound, knows.fails msg⟩
  | looking index =>
    cases err with
    | none =>
      dsimp only
      split
      · next group stored => exact ⟨.refl sound, .works index false (sound.stored group stored).1⟩
      · exact ⟨.refl sound, trivial, knows.pool⟩
    | some msg => exact ⟨.refl sound, knows.fails msg⟩
  | reading index behind =>
    cases err with
    | none => exact ⟨.refl sound, reads_knows contract index behind _ knows⟩
    | some msg => exact ⟨.refl sound, knows.fails msg⟩

/-! ### A worker goes on -/

theorem System.Sound.same {after : System} (sound : system.Sound consumer) (frozen : after.frozen = system.frozen)
    (mark : after.checkpoint = system.checkpoint) (stored : after.group = system.group)
    (finished : after.finished = system.finished) (passed : after.passed = system.passed) : after.Sound consumer := by
  obtain ⟨_, _, _, past, _, _⟩ := sound
  refine ⟨?_, ?_, ?_, ?_, ?_, ?_⟩
  · rwa [frozen]
  · rwa [frozen]
  · rwa [stored, frozen, mark, finished]
  · unfold System.Through at past ⊢
    rwa [stored, frozen, mark, finished]
  · rwa [passed, frozen]
  · rwa [passed]

/-- A worker's step: the store is sound, and the worker knows what it is told. -/
structure Effect.Keeps (consumer : Consumer) (system : System) (group : Group) (effect : Effect) : Prop where
  sound : ({ system with
    group := effect.group
    passed := system.passed ++ effect.passed
    finished := system.finished ++ effect.finished } : System).Sound consumer
  worker : effect.worker.Knows (system.finished ++ effect.finished) group

theorem goes_keeps (sound : system.Sound consumer) (inside : batch ∈ group.batches) (pool : Pool) (index : Nat)
    (unmarked : ∀ res, work ≠ .inl (.marking res)) :
    (pool.goes system.group index batch work).Keeps consumer system group := by
  cases work with
  | inl work =>
    refine ⟨?_, ?_⟩
    · exact sound.same rfl rfl rfl (append_nil _) (append_nil _)
    cases work with
    | marking res => exact absurd rfl (unmarked res)
    | _ => exact inside
  | inr error => exact ⟨sound.same rfl rfl rfl (append_nil _) (append_nil _), trivial⟩

theorem terminalBatchFailure_unmarked (opts : Options) (attempts : Nat) (error : String) (res : ProcessResult) :
    terminalBatchFailure opts attempts error ≠ .inl (.marking res) := by
  unfold terminalBatchFailure
  split <;> exact nofun

theorem afterAttempt_unmarked (opts : Options) (attempt : Nat) (aborted : Bool) (msg : String)
    (res : ProcessResult) : afterAttempt opts attempt aborted msg ≠ .inl (.marking res) := by
  unfold afterAttempt
  split
  · exact nofun
  · exact terminalBatchFailure_unmarked _ _ _ res

theorem beginBatch_unmarked (consumer : Consumer) (opts : Options) (batch : Batch) (res : ProcessResult) :
    beginBatch consumer opts batch ≠ .inl (.marking res) := by
  unfold beginBatch
  split
  · exact terminalBatchFailure_unmarked _ _ _ res
  split
  · exact nofun
  · exact terminalBatchFailure_unmarked _ _ _ res

theorem finish_keeps (sound : system.Sound consumer) (inside : batch ∈ group.batches) (effect : Effect)
    (index : Nat) (res : ProcessResult) (worker : effect.worker = .busy index batch (.marking res))
    (stored : effect.group = system.group) (passed : effect.passed = []) (finished : effect.finished = [batch]) :
    effect.Keeps consumer system group := by
  refine ⟨(sound.finish effect.finished).same rfl rfl stored rfl ?_, ?_⟩
  · exact (congrArg (system.passed ++ ·) passed).trans (append_nil _)
  · rw [worker, finished]
    exact ⟨inside, mem_append_right _ (mem_singleton_self _)⟩

section
variable (distinct : Function.Injective consumer.sha256) (sound : system.Sound consumer)
  (among : group ∈ system.frozen)
include distinct sound among

theorem mark_keeps (inside : batch ∈ group.batches) (finished : batch ∈ system.finished) (groupId : String)
    (effect : Effect) (worker : effect.worker = .idle ∨ effect.worker = .gone)
    (stored : effect.group = system.group ∨ effect.group = (markBatchComplete system.group groupId batch.id).2)
    (quiet : effect.passed = [] ∧ effect.finished = []) : effect.Keeps consumer system group := by
  have passes : system.passed ++ effect.passed = system.passed := by rw [quiet.1, append_nil]
  have finishes : system.finished ++ effect.finished = system.finished := by rw [quiet.2, append_nil]
  refine ⟨?_, by rcases worker with is | is <;> rw [is] <;> trivial⟩
  rcases stored with is | is
  · exact sound.same rfl rfl is finishes passes
  · exact (sound.mark distinct among inside finished groupId).same rfl rfl is finishes passes

theorem step_keeps {pool : Pool} (knows : pool.Knows system.finished group) (present : worker ∈ pool.workers)
    (is : pool.step consumer opts groupId system.group worker move = some effect)
    (timely : ∀ index batch attempt done, worker = .busy index batch (.decoding attempt) → move = .decoded (.ok done) → batch ∈ system.passed ∨ ∃ stored ∈ system.group, batch ∈ stored.batches)
    : effect.Keeps consumer system group := by
  have known := knows.workers worker present
  cases worker with
  | gone => cases is
  | idle =>
    cases move with
    | take =>
      unfold Pool.step at is
      cases next : pool.batches[pool.cursor]? with
      | none =>
        rw [next] at is
        cases is
        exact ⟨sound.same rfl rfl rfl (append_nil _) (append_nil _), trivial⟩
      | some batch =>
        rw [next] at is
        cases is
        have keeps := goes_keeps sound (knows.batches batch (mem_of_getElem? next)) pool pool.cursor
          (beginBatch_unmarked consumer opts batch)
        exact ⟨keeps.sound, keeps.worker⟩
    | _ => cases is
  | busy index batch work =>
    cases work with
    | decoding attempt =>
      cases move with
      | decoded out =>
        cases out with
        | ok done =>
          cases is
          exact ⟨(sound.pass among known (timely index batch attempt done rfl rfl)).same rfl rfl rfl (append_nil _) rfl,
            known⟩
        | error err =>
          cases is
          exact goes_keeps sound known pool index (afterAttempt_unmarked opts attempt err.1 err.2)
      | _ => cases is
    | handling attempt =>
      cases move with
      | handled out =>
        cases out with
        | ok done =>
          cases is
          exact finish_keeps sound known _ index (.processed batch.id) rfl rfl rfl rfl
        | error err =>
          cases is
          exact goes_keeps sound known pool index (afterAttempt_unmarked opts attempt err.1 err.2)
      | _ => cases is
    | sleeping =>
      cases move with
      | woken =>
        cases is
        exact goes_keeps sound known pool index nofun
      | _ => cases is
    | burying =>
      cases move with
      | buried =>
        unfold Pool.step at is
        dsimp only at is
        split at is
        · split at is
          · cases is
            exact finish_keeps sound known _ index (.deadLettered batch.id) rfl rfl rfl rfl
          · cases is
            exact ⟨sound.same rfl rfl rfl (append_nil _) (append_nil _), trivial⟩
        · cases is
      | _ => cases is
    | marking res =>
      obtain ⟨inside, finished⟩ := known
      cases move with
      | marked =>
        unfold Pool.step at is
        dsimp only at is
        split at is
        · cases is
          refine mark_keeps distinct sound among inside finished groupId _ (.inr rfl) ?_ ⟨rfl, rfl⟩
          split
          · exact .inr rfl
          · exact .inl rfl
        · split at is
          · cases is
            exact mark_keeps distinct sound among inside finished groupId _ (.inl rfl) (.inr rfl) ⟨rfl, rfl⟩
          · cases is
            exact mark_keeps distinct sound among inside finished groupId _ (.inr rfl) (.inr rfl) ⟨rfl, rfl⟩
      | _ => cases is

end

theorem step_group {pool : Pool} (is : pool.step consumer opts groupId stored worker move = some effect) :
    effect.group = stored ∨ ∃ id batchId, effect.group = (markBatchComplete stored id batchId).2 := by
  have goes : ∀ index batch (work : Work ⊕ String), (pool.goes stored index batch work).group = stored := by
    intro index batch work
    cases work <;> rfl
  unfold Pool.step at is
  split at is
  · split at is
    · cases is
      exact .inl rfl
    · cases is
      exact .inl (goes ..)
  · split at is
    · cases is
      exact .inl rfl
    · cases is
      exact .inl (goes ..)
  · split at is
    · cases is
      exact .inl rfl
    · cases is
      exact .inl (goes ..)
  · cases is
    exact .inl rfl
  · split at is
    · dsimp only at is
      split at is
      · cases is
        exact .inl rfl
      · cases is
        exact .inl rfl
    · cases is
  · dsimp only at is
    split at is
    · cases is
      split
      · exact .inr ⟨_, _, rfl⟩
      · exact .inl rfl
    split at is
    · cases is
      exact .inr ⟨_, _, rfl⟩
    · cases is
      exact .inr ⟨_, _, rfl⟩
  · cases is

/-! ### The system goes on -/

structure System.Invariant (consumer : Consumer) (system : System) : Prop where
  sound : system.Sound consumer
  runs : ∀ run ∈ system.runs, run.Knows consumer system.frozen system.finished

theorem System.Invariant.set {after : System} (holds : system.Invariant consumer) (kept : Kept consumer system after)
    {index : Nat} (knows : run.Knows consumer after.frozen after.finished) :
    ({ after with runs := after.runs.set index run } : System).Invariant consumer where
  sound := kept.sound.same rfl rfl rfl rfl rfl
  runs other among := by
    rcases mem_or_eq_of_mem_set among with present | rfl
    · rw [kept.runs] at present
      exact (holds.runs other present).mono kept.frozen kept.finished
    · exact knows

theorem next_keeps (distinct : Function.Injective consumer.sha256) (contract : ReadContract read)
    (holds : system.Invariant consumer) (label : Label) (timely : Timely system label) :
    (system.next consumer read label).Invariant consumer := by
  have sound := holds.sound
  cases label with
  | append event => exact ⟨sound.same rfl rfl rfl rfl rfl, holds.runs⟩
  | retain => exact ⟨sound.same rfl rfl rfl rfl rfl, holds.runs⟩
  | start =>
    refine ⟨sound.same rfl rfl rfl rfl rfl, fun run among => ?_⟩
    rcases mem_append.mp among with present | new
    · exact holds.runs run present
    rw [mem_singleton.mp new]
    refine ⟨?_, nofun⟩
    unfold Run.starts
    split <;> trivial
  | main index err effective =>
    unfold System.next
    dsimp only
    cases here : system.runs[index]? with
    | none => exact holds
    | some run =>
      obtain ⟨kept, knows⟩ := goesOn_keeps distinct contract sound (holds.runs run (mem_of_getElem? here)) err
        effective fun at' behind group exhausted is => timely run here behind (by rw [is]; rfl)
      exact holds.set kept knows
  | work index place move =>
    unfold System.next
    dsimp only
    cases here : system.runs[index]? with
    | none => exact holds
    | some run =>
      dsimp only
      have known := holds.runs run (mem_of_getElem? here)
      cases working : run.pool with
      | none => exact holds
      | some entry =>
        obtain ⟨groupId, pool⟩ := entry
        dsimp only
        cases stepped : pool.workers[place]?.bind (pool.step consumer run.options groupId system.group · move) with
        | none => exact holds
        | some effect =>
          obtain ⟨worker, at', is⟩ := Option.bind_eq_some_iff.mp stepped
          obtain ⟨group, among, batches, workers⟩ := known.pool groupId pool working
          have keeps := step_keeps distinct sound among ⟨batches, workers⟩ (mem_of_getElem? at') is
            fun num batch attempt done busy decodes => by
              subst busy decodes
              exact timely run here (groupId, pool) working _ at' batch rfl
          have grown : system.finished ⊆ system.finished ++ effect.finished := subset_append_left ..
          refine ⟨keeps.sound.same rfl rfl rfl rfl rfl, fun other present => ?_⟩
          rcases mem_or_eq_of_mem_set present with before | rfl
          · exact (holds.runs other before).mono (refl _) grown
          have moved : ({ run with
              pool := some (groupId, { pool with
                cursor := effect.cursor
                workers := pool.workers.set place effect.worker
                results := effect.results }) } : Run).Knows consumer system.frozen
              (system.finished ++ effect.finished) := by
            refine ⟨(known.mono (refl _) grown).stage, ?_⟩
            rintro _ _ ⟨⟩
            refine ⟨group, among, batches, fun other among => ?_⟩
            rcases mem_or_eq_of_mem_set among with stays | rfl
            · exact (workers other stays).mono grown
            · exact keeps.worker
          exact moved.throws effect.thrown
  | crash index =>
    unfold System.next
    dsimp only
    cases here : system.runs[index]? with
    | none => exact holds
    | some run =>
      have knows := (holds.runs run (mem_of_getElem? here)).throws (some "crashed")
      exact holds.set (.refl sound) ⟨knows.stage, nofun⟩

theorem invariant_start (log : Log Content) : ({ log } : System).Invariant consumer where
  sound := ⟨nofun, .nil, nofun, nofun, nofun, fun earlier _ _ is => by simp at is⟩
  runs := nofun

end Applik8s.Batches
