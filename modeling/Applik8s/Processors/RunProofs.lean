import Applik8s.Processors.PoolProofs
import Applik8s.Streams.Coverage

/-! Runs of a stream processor, one after the other, on a stream that goes on: the checkpoint passes only what was
handled or buried, and a partition is worked through in order. -/
namespace Applik8s.Processors
open Lib Streams List Option Nat

/-! ### What is covered -/

def System.Covered (system : System) (event : Event) : Prop :=
  event ∈ system.handled ∨ ∃ letter ∈ system.deadLetters, idOf letter.event = idOf event

variable {log : Log Content} {covered further : Event → Prop} {bound : Nat} {event : Event}

theorem mem_bury (held : letter ∈ letters) (added : DeadLetter) :
    ∃ kept ∈ bury letters added, idOf kept.event = idOf letter.event := by
  unfold bury
  dsimp only
  split
  · refine ⟨_, mem_map_of_mem held, ?_⟩
    split <;> rfl
  · exact ⟨letter, mem_append_left _ held, rfl⟩

theorem bury_added (letters : List DeadLetter) (added : DeadLetter) :
    ∃ kept ∈ bury letters added, idOf kept.event = idOf added.event := by
  unfold bury
  dsimp only
  split
  · next present =>
    obtain ⟨_, among, same⟩ := any_eq_true.mp present
    refine ⟨_, mem_map_of_mem among, ?_⟩
    simp only [decide_eq_true_eq] at same
    rw [if_pos same]
    exact same
  · exact ⟨_, mem_append_right _ (mem_singleton_self _), rfl⟩

theorem mem_buryAll (held : letter ∈ letters) (added : List DeadLetter) :
    ∃ kept ∈ added.foldl bury letters, idOf kept.event = idOf letter.event := by
  induction added generalizing letters letter with
  | nil => exact ⟨letter, held, rfl⟩
  | cons first rest ih =>
    obtain ⟨_, among, same⟩ := mem_bury held first
    obtain ⟨last, among, also⟩ := ih among
    exact ⟨last, among, also.trans same⟩

theorem buryAll_added {added : List DeadLetter} (given : letter ∈ added) (letters : List DeadLetter) :
    ∃ kept ∈ added.foldl bury letters, idOf kept.event = idOf letter.event := by
  induction added generalizing letters with
  | nil => cases given
  | cons first rest ih =>
    rcases mem_cons.mp given with rfl | later
    · obtain ⟨_, among, same⟩ := bury_added letters letter
      obtain ⟨last, among, also⟩ := mem_buryAll among rest
      exact ⟨last, among, also.trans same⟩
    · exact ih later _

/-- Of what was seen nothing is beyond a sequence, and nothing failed. -/
def Quiet (trace : List Notice) (bound : Nat) : Prop :=
  ∀ notice ∈ trace, notice.event.sequence ≤ bound ∧ notice.failed = false

def Rests (run : Run) : Prop := ∀ pool, run.pool = some pool → pool.isDone = true

def StageSound (log : Log Content) (covered : Event → Prop) (run : Run) : Prop :=
  match run.stage with
  | .preparing | .loading => run.pool = none ∧ run.trace = []
  | .reading _ checkpoint => Through log covered checkpoint ∧ Quiet run.trace checkpoint ∧ Rests run
  | .working _ checkpoint page =>
    Through log covered checkpoint ∧ PageSound log checkpoint page ∧ ∃ pool, run.pool = some pool ∧
      PoolSound page.items page.nextSequence run.trace True covered pool ∧ (pool.workers = [] → pool.lanes = [])
  | .advancing _ page => Through log covered page.nextSequence ∧ Quiet run.trace page.nextSequence ∧ Rests run
  | .ended _ => True

structure RunSound (options : Options) (log : Log Content) (covered : Event → Prop) (run : Run) : Prop where
  taken : run.isOver = false → options.refused = none
  told : run.trace.Pairwise Notice.Follows
  pool : ∀ pool, run.pool = some pool → ∃ items high, PoolSound items high run.trace False covered pool
  stage : StageSound log covered run

variable {run : Run} {opts : Options}

theorem StageSound.follow (sound : StageSound log covered run)
    (through : ∀ bound, Through log covered bound → Through later further bound)
    (page : ∀ after page, PageSound log after page → PageSound later after page)
    (more : ∀ event, covered event → further event) : StageSound later further run := by
  unfold StageSound at sound ⊢
  cases stage : run.stage with
  | preparing | loading => rwa [stage] at sound
  | reading =>
    rw [stage] at sound
    exact sound.imp_left (through _)
  | working =>
    rw [stage] at sound
    obtain ⟨covers, reads, pool, has, works, some⟩ := sound
    exact ⟨through _ covers, page _ _ reads, pool, has, works.mono id more, some⟩
  | advancing =>
    rw [stage] at sound
    exact sound.imp_left (through _)
  | ended => trivial

theorem RunSound.leads (sound : RunSound opts log covered run) (leads : log.Leads later) :
    RunSound opts later covered run :=
  { sound with
    stage := sound.stage.follow (fun _ through => through.leads leads) (fun _ _ page => page.leads leads)
      fun _ same => same }

theorem RunSound.mono (sound : RunSound opts log covered run) (more : ∀ event, covered event → further event) :
    RunSound opts log further run where
  taken := sound.taken
  told := sound.told
  pool pool has := by
    obtain ⟨items, high, works⟩ := sound.pool pool has
    exact ⟨items, high, works.mono id more⟩
  stage := sound.stage.follow (fun _ through => through.mono more) (fun _ _ page => page) more

theorem Run.starts_sound : RunSound opts log covered (Run.starts opts) := by
  refine ⟨fun open_ => ?_, .nil, nofun, ?_⟩
  · unfold Run.starts Run.isOver at open_
    cases refused : opts.refused with
    | none => rfl
    | some => simp [refused] at open_
  · unfold StageSound Run.starts
    cases opts.refused with
    | none => exact ⟨rfl, rfl⟩
    | some => trivial

/-! ### The workers of a page -/

variable {read : Source Content} {after : Nat} {pool : Pool}

theorem Pool.of_sound (contract : ReadContract read) (concurrency : Nat) (quiet : Quiet trace after)
    (told : trace.Pairwise Notice.Follows) :
    PoolSound (read log after limit).items (read log after limit).nextSequence trace True covered
      (Pool.of concurrency (read log after limit).items) := by
  have idle : ∀ (place : Nat) (worker : Worker),
      (Pool.of concurrency (read log after limit).items).workers[place]? = some worker → worker = .idle :=
    fun _ _ is => eq_of_mem_replicate (mem_of_getElem? is)
  obtain ⟨ascending, above⟩ := read_items contract log after limit
  refine
    { lanes := rfl
      ascending := ascending
      bounded := fun event among => (above event among).2
      seen := fun notice among => (quiet notice among).1.trans (contract.forward ..)
      held := fun place num item rest work busy => nomatch idle place _ busy
      apart := fun place other num _ holds => ?_
      ahead := fun num _ lane found => ⟨fun _ _ => rfl, after, fun item among => ⟨?_, fun notice seen _ => quiet notice seen⟩⟩
      told := told
      results := nofun
      failing := fun notice among failed => ?_
      passed := fun _ num bound => absurd bound (not_lt_zero _)
      finished := fun _ place gone => nomatch idle place _ gone }
  · obtain ⟨worker, is, busy⟩ := bind_eq_some_iff.mp holds
    rw [idle place worker is] at busy
    cases busy
  · exact (above item.1 (mem_of_getElem? (lane_item found among))).1
  · rw [(quiet notice among).2] at failed
    cases failed

theorem PoolSound.complete (sound : PoolSound items high trace True covered pool) (done : pool.isDone = true)
    (some_ : pool.workers = [] → pool.lanes = []) (stands : items[index]? = some event) :
    (pool.results index).isSome := by
  have gone : ∀ (place : Nat) worker, pool.workers[place]? = some worker → worker = .gone := by
    intro place worker is
    have := all_eq_true.mp done worker (mem_of_getElem? is)
    cases worker with
    | gone => rfl
    | idle | busy lane item rest work => cases this
  obtain ⟨num, lane, found, among⟩ := lanes_cover stands
  rw [← sound.lanes] at found
  refine sound.passed trivial num ?_ lane found (fun place holds => ?_) (event, index) among
  · cases workers : pool.workers with
    | nil =>
      rw [some_ workers] at found
      cases found
    | cons worker rest =>
      have first : pool.workers[0]? = some worker := by rw [workers]; rfl
      rw [gone 0 worker first] at first
      exact Nat.lt_of_lt_of_le (List.getElem?_eq_some_iff.mp found).1 (sound.finished trivial 0 first)
  · obtain ⟨worker, is, busy⟩ := bind_eq_some_iff.mp holds
    rw [gone place worker is] at busy
    cases busy

theorem firstFailed_none {count : Nat} (none : firstFailed results count = none) (bound : index < count)
    (is : results index = some res) : res.isFailed = false := by
  have := findSome?_eq_none_iff.mp none index (mem_range.mpr bound)
  rw [is] at this
  cases res with
  | failed => cases this
  | processed eventId | deadLettered eventId => rfl

theorem PoolSound.covers (sound : PoolSound items high trace True covered pool) (done : pool.isDone = true)
    (some_ : pool.workers = [] → pool.lanes = []) (none : firstFailed pool.results items.length = none) :
    (∀ event ∈ items, covered event) ∧ Quiet trace high := by
  constructor
  · intro event among
    obtain ⟨index, bound, is⟩ := mem_iff_getElem.mp among
    have stands : items[index]? = some event := List.getElem?_eq_some_iff.mpr ⟨bound, is⟩
    obtain ⟨res, held⟩ := isSome_iff_exists.mp (sound.complete done some_ stands)
    obtain ⟨_, also, _⟩ := sound.results index res held (firstFailed_none none bound held)
    rw [stands] at also
    rwa [some.inj also]
  intro notice among
  refine ⟨sound.seen notice among, ?_⟩
  cases failed : notice.failed with
  | false => rfl
  | true =>
    obtain ⟨_, _, bound, held, fails⟩ := sound.failing notice among failed
    rw [firstFailed_none none bound held] at fails
    cases fails

/-! ### The steps of a run -/

variable {system : System}

theorem RunSound.ends (sound : RunSound opts log covered run) (out : Except String Summary) :
    RunSound opts log covered { run with stage := .ended out } :=
  ⟨nofun, sound.told, sound.pool, trivial⟩

/-- What a run does by itself: the stream and what is covered stay, and the checkpoint moves to what is covered. -/
structure GoesOn (options : Options) (system : System) (after : System × Run) : Prop where
  log : after.1.log = system.log
  handled : after.1.handled = system.handled
  deadLetters : after.1.deadLetters = system.deadLetters
  runs : after.1.runs = system.runs
  through : Through system.log system.Covered after.1.checkpoint
  run : RunSound options system.log system.Covered after.2

theorem concurrency_pos (taken : opts.refused = none) : 0 < opts.concurrency.toNat := by
  unfold Options.refused at taken
  split at taken
  · cases taken
  next within =>
  have := not_or.mp within
  omega

theorem goesOn_sound (contract : ReadContract read) (through : Through sys.log sys.Covered sys.checkpoint)
    (sound : RunSound opts sys.log sys.Covered run) (err : Option String) (effective : Bool) :
    GoesOn opts sys (sys.goesOn opts read run err effective) := by
  have stays : ∀ {run}, RunSound opts sys.log sys.Covered run → GoesOn opts sys (sys, run) :=
    fun sound => ⟨rfl, rfl, rfl, rfl, through, sound⟩
  have stage := sound.stage
  have taken := sound.taken
  unfold StageSound at stage
  unfold Run.isOver at taken
  unfold System.goesOn
  cases is : run.stage with
  | ended => exact stays sound
  | preparing =>
    rw [is] at stage taken
    cases err with
    | some => exact stays (sound.ends _)
    | none => exact stays ⟨fun _ => taken rfl, sound.told, sound.pool, stage⟩
  | loading =>
    rw [is] at stage taken
    cases err with
    | some => exact stays (sound.ends _)
    | none =>
      refine stays ⟨fun _ => taken rfl, sound.told, sound.pool, through, fun notice among => ?_, fun pool has => ?_⟩
      · rw [stage.2] at among
        cases among
      · rw [stage.1] at has
        cases has
  | reading batch mark =>
    rw [is] at stage taken
    obtain ⟨covers, quiet, -⟩ := stage
    cases err with
    | some => exact stays (sound.ends _)
    | none =>
      dsimp only
      split
      · exact stays (sound.ends _)
      next near =>
      have works : PoolSound (read sys.log mark opts.pageSize.toNat).items _ run.trace True sys.Covered
          (Pool.of opts.concurrency.toNat _) := Pool.of_sound contract _ quiet sound.told
      refine stays ⟨fun _ => taken rfl, sound.told, ?_, covers,
        read_sound contract covers.within (Nat.le_of_not_lt near), _, rfl, works, fun none => ?_⟩
      · intro pool has
        cases has
        exact ⟨_, _, works.mono (fun _ => trivial) fun _ same => same⟩
      have some_ := concurrency_pos (taken rfl)
      have none := congrArg List.length none
      unfold Pool.of at none
      rw [length_replicate, length_nil] at none
      have empty : (lanesOf (read sys.log mark opts.pageSize.toNat).items).length = 0 := by omega
      exact length_eq_zero_iff.mp empty
  | working =>
    rw [is] at stage taken
    obtain ⟨before, reads, pool, has, works, some_⟩ := stage
    rw [has]
    dsimp only
    split
    · next done =>
      refine stays ?_
      unfold Run.join
      split
      · exact sound.ends _
      next none =>
      obtain ⟨all, quiet⟩ := works.covers done some_ none
      refine ⟨fun _ => taken rfl, sound.told, sound.pool, reads.through before all, quiet, fun other same => ?_⟩
      rw [has] at same
      rwa [← some.inj same]
    · exact stays sound
  | advancing =>
    rw [is] at stage taken
    obtain ⟨covers, quiet, rests⟩ := stage
    cases err with
    | some =>
      dsimp only
      split
      · exact ⟨rfl, rfl, rfl, rfl, through.max covers, sound.ends _⟩
      · exact stays (sound.ends _)
    | none =>
      refine ⟨rfl, rfl, rfl, rfl, through.max covers, ?_⟩
      dsimp only
      split
      · exact sound.ends _
      split
      · exact ⟨fun _ => taken rfl, sound.told, sound.pool, covers, quiet, rests⟩
      · exact sound.ends _

/-- A step of one of its workers keeps a run sound, with what it handled or buried among what is covered. -/
theorem RunSound.work (sound : RunSound opts log covered run) (has : run.pool = some pool)
    (here : pool.workers[place]? = some worker) (steps : pool.step opts worker move = some effect)
    (handled : ∀ event ∈ effect.handled, covered event) (buried : ∀ letter ∈ effect.buried, covered letter.event) :
    RunSound opts log covered (run.after pool place effect) := by
  obtain ⟨items, high, works⟩ := sound.pool pool has
  have works := works.step here steps handled buried
  have told : (run.trace ++ effect.progress.notices).Pairwise Notice.Follows := works.told
  have left : ∀ other, some (pool.after place effect) = some other →
      ∃ items high, PoolSound items high (run.trace ++ effect.progress.notices) False covered other := by
    rintro _ same
    cases same
    exact ⟨items, high, works.mono nofun fun _ same => same⟩
  have idle : pool.isDone = true → False := by
    intro done
    have gone := all_eq_true.mp done worker (mem_of_getElem? here)
    cases worker with
    | gone => cases steps
    | idle | busy lane item rest work => cases gone
  have stage := sound.stage
  unfold Run.after
  cases thrown : effect.thrown with
  | some =>
    cases is : run.stage with
    | ended => exact ⟨nofun, told, left, trivial⟩
    | preparing | loading | reading batch mark | working batch mark page | advancing batch page =>
      exact ⟨nofun, told, left, trivial⟩
  | none =>
    refine ⟨sound.taken, told, left, ?_⟩
    unfold StageSound at stage
    cases is : run.stage with
    | ended => trivial
    | preparing | loading =>
      rw [is, has] at stage
      cases stage.1
    | reading =>
      rw [is] at stage
      exact (idle (stage.2.2 pool has)).elim
    | advancing =>
      rw [is] at stage
      exact (idle (stage.2.2 pool has)).elim
    | working =>
      rw [is] at stage
      obtain ⟨before, reads, _, same, works, some_⟩ := stage
      rw [has] at same
      cases same
      refine ⟨before, reads, _, rfl, (works.step here steps handled buried).mono (fun _ => ⟨trivial, thrown⟩)
        (fun _ same => same), fun none => ?_⟩
      unfold Pool.after at none
      have none := congrArg List.length none
      rw [length_set] at none
      exact some_ (length_eq_zero_iff.mp none)

structure System.Sound (options : Options) (system : System) : Prop where
  through : Through system.log system.Covered system.checkpoint
  runs : ∀ run ∈ system.runs, RunSound options system.log system.Covered run

theorem System.Sound.next (contract : ReadContract read) (sound : system.Sound opts) (label : Label) :
    (system.next opts read label).Sound opts := by
  unfold System.next
  cases label with
  | append event =>
    have leads := system.log.leads_append event
    exact ⟨sound.through.leads leads, fun run among => (sound.runs run among).leads leads⟩
  | retain floor =>
    have leads := system.log.leads_retain floor
    exact ⟨sound.through.leads leads, fun run among => (sound.runs run among).leads leads⟩
  | start =>
    dsimp only
    split
    · refine ⟨sound.through, fun run among => ?_⟩
      rcases mem_append.mp among with among | among
      · exact sound.runs run among
      · rw [mem_singleton.mp among]
        exact Run.starts_sound
    · exact sound
  | main err effective =>
    dsimp only
    split
    · exact sound
    next run last =>
    have among : run ∈ system.runs := mem_of_getLast? last
    obtain ⟨log, handled, deadLetters, runs, through, after⟩ :=
      goesOn_sound contract sound.through (sound.runs run among) err effective
    have covered : (system.goesOn opts read run err effective).1.Covered = system.Covered := by
      funext event
      unfold System.Covered
      rw [handled, deadLetters]
    rw [← log, ← covered] at through after
    refine ⟨through, fun other member => ?_⟩
    rcases mem_append.mp member with member | member
    · rw [runs] at member
      have kept := sound.runs other (dropLast_subset _ member)
      rwa [← log, ← covered] at kept
    · rw [mem_singleton.mp member]
      exact after
  | work index place move =>
    dsimp only
    split
    · exact sound
    next run here =>
    split
    · exact sound
    next pool has =>
    split
    · exact sound
    next effect found =>
    obtain ⟨_, stands, steps⟩ := bind_eq_some_iff.mp found
    have more : ∀ event, system.Covered event → System.Covered { system with
        handled := system.handled ++ effect.handled
        deadLetters := effect.buried.foldl bury system.deadLetters
        runs := system.runs.set index (run.after pool place effect) } event := by
      rintro event (held | ⟨letter, held, same⟩)
      · exact .inl (mem_append_left _ held)
      · obtain ⟨kept, among, also⟩ := mem_buryAll held effect.buried
        exact .inr ⟨kept, among, also.trans same⟩
    refine ⟨sound.through.mono more, fun other member => ?_⟩
    rcases mem_or_eq_of_mem_set member with member | rfl
    · exact (sound.runs other member).mono more
    refine ((sound.runs run (mem_of_getElem? here)).mono more).work has stands steps
      (fun event given => .inl (mem_append_right _ given)) fun letter given => .inr ?_
    exact buryAll_added given system.deadLetters
  | crash =>
    refine ⟨sound.through, fun run among => ?_⟩
    obtain ⟨old, member, rfl⟩ := mem_map.mp among
    have kept := sound.runs old member
    unfold Run.isOver
    cases is : old.stage with
    | ended => exact ⟨nofun, kept.told, nofun, trivial⟩
    | preparing | loading | reading batch mark | working batch mark page | advancing batch page =>
      exact ⟨nofun, kept.told, nofun, trivial⟩

/-- No two workers of the run are at events of one partition. -/
def Run.Apart (run : Run) : Prop :=
  ∀ pool, run.pool = some pool → ∀ (place other : Nat) one two, place ≠ other →
    pool.workers[place]?.bind Worker.event = some one → pool.workers[other]?.bind Worker.event = some two →
      partitionOf one ≠ partitionOf two

theorem RunSound.isApart (sound : RunSound opts log covered run) : run.Apart := by
  intro pool has place other one two ne first second same
  obtain ⟨_, _, works⟩ := sound.pool pool has
  have lanes : ∀ {place : Nat} {event}, pool.workers[place]?.bind Worker.event = some event →
      ∃ num lane item, pool.workers[place]?.bind Worker.holds = some num ∧ pool.lanes[num]? = some lane ∧
        item ∈ lane ∧ item.1 = event := by
    intro place event is
    obtain ⟨worker, here, has⟩ := bind_eq_some_iff.mp is
    cases worker with
    | idle | gone => cases has
    | busy num item =>
      cases has
      obtain ⟨-, lane, found, -, _, shape, -⟩ := works.held _ _ _ _ _ here
      exact ⟨num, lane, item, by rw [here]; rfl, found, by simp [shape], rfl⟩
  obtain ⟨_, _, _, holds, found, among, rfl⟩ := lanes first
  obtain ⟨_, _, _, holds', found', among', rfl⟩ := lanes second
  rw [works.lanes] at found found'
  rw [lanes_apart found found' among among' same] at holds
  exact works.apart place other _ ne holds holds'

/-- Whatever the schedule, the outcomes, the crashes and the growth of the stream: the checkpoint has passed only what
was handled or dead-lettered, no two events of a partition are in progress in one run, and the attempts of a partition
go in the order of its events, with none behind a failure. -/
theorem runs_keep_order (contract : ReadContract read) (options : Options) (log : Log Content) (labels : List Label) :
    let system := runFrom (System.next options read) { log } labels
    (∀ event ∈ system.log.events, event.sequence ≤ system.checkpoint → system.Covered event) ∧
      ∀ run ∈ system.runs, run.Apart ∧ run.trace.Pairwise Notice.Follows := by
  have sound : (runFrom (System.next options read) { log } labels).Sound options := by
    exact invariant_of_steps (fun system : System => system.Sound options)
      (fun system label held _ => held.next contract label) ⟨.zero, nofun⟩
      (eachStep_of_always fun _ _ _ => trivial)
  exact ⟨sound.through.covers, fun run among => ⟨(sound.runs run among).isApart, (sound.runs run among).told⟩⟩

def recorded (sequence : Nat) (partitionKey : String) : Event :=
  ⟨sequence, ⟨toString sequence, partitionKey, "", .null⟩⟩

/-- Two partitions, of which one fails once, with two workers. -/
def retriedRun : List Label :=
  [.append (recorded 1 "a"), .append (recorded 2 "b"), .append (recorded 3 "a"), .start, .main none true,
    .main none true, .main none true, .work 0 0 .take, .work 0 1 .take, .work 0 1 (.handled (.ok ())),
    .work 0 0 (.handled (.error (false, "busy"))), .work 0 0 .woken, .work 0 0 (.handled (.ok ())),
    .work 0 0 (.handled (.ok ())), .work 0 0 .take, .work 0 1 .take, .main none true, .main none true]

def twoWorkers : Options where
  processor := "index"
  streamName := "changes"
  concurrency := 2
  maxAttempts := 2
  failure := .pause
  timeoutMs := 1000
  maxInputBytes := 100

theorem retried_run_keeps_order :
    let system := runFrom (System.next twoWorkers postgresRead) { log := .empty } retriedRun
    system.checkpoint = 3 ∧ (∀ event ∈ system.log.events, event.sequence ≤ 3 → system.Covered event) ∧
      ∀ run ∈ system.runs, run.Apart ∧ run.trace.Pairwise Notice.Follows := by
  have checkpoint : (runFrom (System.next twoWorkers postgresRead) { log := .empty } retriedRun).checkpoint = 3 := by
    decide +kernel
  have keeps := runs_keep_order postgresRead_contract twoWorkers .empty retriedRun
  dsimp only at keeps ⊢
  rw [checkpoint] at keeps
  exact ⟨checkpoint, keeps⟩

end Applik8s.Processors
