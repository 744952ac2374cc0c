import Applik8s.Processors.Runs

/-! The lanes of a page and the workers in them: a worker has its lane for itself, goes through it in order, and
leaves a result for every item of it. -/
namespace Applik8s.Processors
open Lib Streams List Option Nat

section
variable {items : List Event} {index : Nat} {lane : List Item} {item other : Item}

section
variable (found : (lanesOf items)[index]? = some lane)
include found

theorem lane_eq : ∃ part, (groups (fun item : Item => partitionOf item.1) items.zipIdx)[index]? = some (part, lane) ∧
      lane = items.zipIdx.filter (partitionOf ·.1 = part) := by
  unfold lanesOf at found
  rw [getElem?_map] at found
  obtain ⟨⟨part, _⟩, stands, rfl⟩ := map_eq_some_iff.mp found
  exact ⟨part, stands, (mem_groups (mem_of_getElem? stands)).1⟩

theorem lane_item (among : item ∈ lane) : items[item.2]? = some item.1 := by
  obtain ⟨_, _, rfl⟩ := lane_eq found
  exact mem_zipIdx_iff_getElem?.mp (mem_filter.mp among).1

theorem lane_partition (one : item ∈ lane) (two : other ∈ lane) : partitionOf item.1 = partitionOf other.1 := by
  obtain ⟨_, _, rfl⟩ := lane_eq found
  have first := (mem_filter.mp one).2
  have second := (mem_filter.mp two).2
  simp only [decide_eq_true_eq] at first second
  rw [first, second]

theorem lanes_apart (found' : (lanesOf items)[index']? = some lane') (one : item ∈ lane) (two : other ∈ lane')
    (same : partitionOf item.1 = partitionOf other.1) : index = index' := by
  obtain ⟨part, stands, rfl⟩ := lane_eq found
  obtain ⟨partition', stands', rfl⟩ := lane_eq found'
  have first := (mem_filter.mp one).2
  have second := (mem_filter.mp two).2
  simp only [decide_eq_true_eq] at first second
  have keys : part = partition' := first.symm.trans (same.trans second)
  subst keys
  have distinct : ((groups (fun item : Item => partitionOf item.1) items.zipIdx).map Prod.fst).Nodup :=
    groups_distinct
  have bound : index < ((groups (fun item : Item => partitionOf item.1) items.zipIdx).map Prod.fst).length := by
    rw [length_map]
    exact (List.getElem?_eq_some_iff.mp stands).1
  refine (getElem?_inj bound distinct).mp ?_
  rw [getElem?_map, getElem?_map, stands, stands']

end

theorem lanes_cover (stands : items[index]? = some event) :
    ∃ (num : Nat) (lane : List Item), (lanesOf items)[num]? = some lane ∧ (event, index) ∈ lane := by
  have among : (event, index) ∈ items.zipIdx := mem_zipIdx_iff_getElem?.mpr stands
  have group : (partitionOf event, items.zipIdx.filter (partitionOf ·.1 = partitionOf event)) ∈
      groups (fun item : Item => partitionOf item.1) items.zipIdx := group_of_mem among
  obtain ⟨num, bound, is⟩ := mem_iff_getElem.mp group
  refine ⟨num, items.zipIdx.filter (partitionOf ·.1 = partitionOf event), ?_, mem_filter.mpr ⟨among, by simp⟩⟩
  unfold lanesOf
  rw [getElem?_map, getElem?_eq_getElem bound, is]
  rfl

/-- One item before another: under a lower sequence, at a lower index. -/
def Before (item other : Item) : Prop := item.1.sequence < other.1.sequence ∧ item.2 < other.2

theorem lane_ascending (ascending : items.Pairwise (·.sequence < ·.sequence))
    (found : (lanesOf items)[index]? = some lane) : lane.Pairwise Before := by
  obtain ⟨_, _, rfl⟩ := lane_eq found
  refine List.Pairwise.filter _ ?_
  rw [pairwise_iff_getElem] at ascending ⊢
  intro earlier later earlierBound laterBound less
  rw [getElem_zipIdx, getElem_zipIdx]
  rw [length_zipIdx] at earlierBound laterBound
  exact ⟨ascending earlier later earlierBound laterBound less, by omega⟩

theorem lanes_index (found : (lanesOf items)[index]? = some lane) (found' : (lanesOf items)[index']? = some lane')
    (one : item ∈ lane) (two : other ∈ lane') (same : item.2 = other.2) : index = index' := by
  have first := lane_item found one
  have second := lane_item found' two
  rw [same, second] at first
  exact lanes_apart found found' one two (congrArg partitionOf (some.inj first).symm)

end

/-! ### What is seen of a partition -/

namespace Notice

def event : Notice → Event
  | .began event _ | .settled event _ => event

def failed : Notice → Bool
  | .settled _ failed => failed
  | .began .. => false

def isBegin : Notice → Bool
  | .began .. => true
  | .settled .. => false

/-- Within a partition the sequences do not fall, and behind a failure nothing is attempted. -/
def Follows (earlier later : Notice) : Prop :=
  partitionOf earlier.event = partitionOf later.event →
    earlier.event.sequence ≤ later.event.sequence ∧ (earlier.failed = true → later.isBegin = false)

end Notice

variable {items : List Event} {lane rest : List Item} {item : Item} {trace notices : List Notice}
  {results : Results} {partition : String} {bound : Nat}

/-- Of a partition nothing has been seen beyond a sequence, and no failure. -/
def Reached (trace : List Notice) (partition : String) (bound : Nat) : Prop :=
  ∀ notice ∈ trace, partitionOf notice.event = partition → notice.event.sequence ≤ bound ∧ notice.failed = false

/-- The notices of a worker's step, behind what was seen. -/
structure Adds (trace notices : List Notice) (partition : String) : Prop where
  own : ∀ notice ∈ notices, partitionOf notice.event = partition
  told : trace.Pairwise Notice.Follows → (trace ++ notices).Pairwise Notice.Follows

theorem Reached.mono (reached : Reached trace part bound) (less : bound ≤ further) : Reached trace part further :=
  fun notice among same => ⟨(reached notice among same).1.trans less, (reached notice among same).2⟩

theorem Reached.append (reached : Reached trace part bound) (adds : Adds trace notices other)
    (ne : other ≠ part) : Reached (trace ++ notices) part bound := by
  intro notice among same
  rcases mem_append.mp among with among | among
  · exact reached notice among same
  · exact absurd ((adds.own notice among).symm.trans same) ne

theorem Adds.nil : Adds trace [] part := ⟨by simp, fun told => by rwa [append_nil]⟩

theorem Adds.one {notice : Notice} (same : partitionOf notice.event = part)
    (reached : Reached trace part notice.event.sequence) : Adds trace [notice] part where
  own := forall_mem_singleton.mpr same
  told told := by
    refine pairwise_append.mpr ⟨told, pairwise_singleton .., fun earlier among later is => ?_⟩
    rw [mem_singleton.mp is]
    intro parts
    have := reached earlier among (parts.trans same)
    exact ⟨this.1, fun failed => by simp [this.2] at failed⟩

theorem Adds.trans {more : List Notice} (first : Adds trace notices part)
    (second : Adds (trace ++ notices) more part) : Adds trace (notices ++ more) part where
  own notice among := (mem_append.mp among).elim (first.own notice) (second.own notice)
  told told := by
    rw [← append_assoc]
    exact second.told (first.told told)

theorem Reached.snoc (reached : Reached trace part bound) (within : notice.event.sequence ≤ bound)
    (well : notice.failed = false) : Reached (trace ++ [notice]) part bound := by
  intro other among same
  rcases mem_append.mp among with among | among
  · exact reached other among same
  · rw [mem_singleton.mp among]
    exact ⟨within, well⟩

/-! ### A worker in its lane -/

/-- The lane of a partition: its items ascend, and each has an index of its own. -/
structure Laned (lane : List Item) (partition : String) : Prop where
  own : ∀ item ∈ lane, partitionOf item.1 = partition
  ascending : lane.Pairwise Before

/-- Where a worker that was in this lane stands: it is through with it, or it has come to an item, with results for
those before and none for it and the rest. -/
def Stands (number : Nat) (lane : List Item) (partition : String) (results : Results) (trace : List Notice) :
    Worker → Prop
  | .idle => ∀ item ∈ lane, (results item.2).isSome
  | .busy index item rest _ => index = number ∧ ∃ done, lane = done ++ item :: rest ∧
      (∀ other ∈ done, (results other.2).isSome) ∧ (∀ other ∈ item :: rest, results other.2 = none) ∧
      Reached trace partition item.1.sequence
  | .gone => False

/-- The results a step adds: to items without one, and of the items in front of it. -/
structure Grows (lane : List Item) (before after : Results) : Prop where
  kept : ∀ index result, before index = some result → after index = some result
  within : ∀ index, before index = none → (∀ item ∈ lane, item.2 ≠ index) → after index = none

variable {result : ProcessResult} {listed : List Item}

theorem Results.assign_of_mem (results : Results) (among : ∃ item ∈ listed, item.2 = index)
    : results.assign listed res index = some res := by
  unfold Results.assign
  rw [if_pos]
  obtain ⟨item, member, same⟩ := among
  exact any_eq_true.mpr ⟨item, member, by simp [same]⟩

theorem Results.assign_of_not (results : Results) (outside : ∀ item ∈ listed, item.2 ≠ index)
    : results.assign listed res index = results index := by
  unfold Results.assign
  rw [if_neg]
  intro any
  obtain ⟨item, member, same⟩ := any_eq_true.mp any
  exact outside item member (by simpa using same)

theorem Results.assign_grows (res : ProcessResult) (part : ∀ item ∈ listed, item ∈ lane)
    (vacant : ∀ item ∈ listed, results item.2 = none) : Grows lane results (results.assign listed res) where
  kept index held is := by
    rw [results.assign_of_not, is]
    rintro item member rfl
    rw [vacant item member] at is
    cases is
  within index is outside := by
    rw [results.assign_of_not fun item member => outside item (part item member), is]

theorem Grows.trans {middle last : Results} (first : Grows lane results middle) (second : Grows lane middle last) :
    Grows lane results last where
  kept index res is := second.kept index res (first.kept index res is)
  within index is outside := second.within index (first.within index is outside) outside

/-- What a step of a worker in its lane leaves; `gains` are the results that are no failures. -/
structure Advances (number : Nat) (lane : List Item) (partition : String) (trace : List Notice) (results : Results)
    (gains : Nat → ProcessResult → Prop) (progress : Progress) : Prop where
  stands : Stands number lane partition progress.results (trace ++ progress.notices) progress.worker
  adds : Adds trace progress.notices partition
  listed : ∀ notice ∈ progress.notices, ∃ item ∈ lane, notice.event = item.1
  grows : Grows lane results progress.results
  failing : ∀ notice ∈ progress.notices, notice.failed = true →
    ∃ item ∈ lane, ∃ result, progress.results item.2 = some result ∧ result.isFailed = true
  sound : ∀ index result, progress.results index = some result → result.isFailed = false →
    results index = some result ∨ gains index result

variable {num : Nat}

theorem fails_advances {done : List Item} (fails : res.isFailed = true) (laned : Laned lane part)
    (shape : lane = done ++ item :: rest) (before : ∀ other ∈ done, (results other.2).isSome)
    (vacant : ∀ other ∈ item :: rest, results other.2 = none) (reached : Reached trace part item.1.sequence) :
    Advances num lane part trace results (fun _ _ => False)
      ⟨.idle, results.assign (item :: rest) res, [.settled item.1 true]⟩ where
  stands := by
    intro other among
    rw [shape] at among
    have grows := results.assign_grows res (fun _ member => member) vacant
    rcases mem_append.mp among with among | among
    · obtain ⟨held, is⟩ := isSome_iff_exists.mp (before other among)
      exact isSome_iff_exists.mpr ⟨held, grows.kept _ _ is⟩
    · exact isSome_iff_exists.mpr ⟨res, results.assign_of_mem ⟨other, among, rfl⟩⟩
  adds := .one (laned.own item (by simp [shape])) reached
  listed := forall_mem_singleton.mpr ⟨item, by simp [shape], rfl⟩
  grows := results.assign_grows res (fun other member => shape ▸ mem_append_right done member) vacant
  failing notice _ _ := ⟨item, by simp [shape], res, results.assign_of_mem ⟨item, by simp, rfl⟩, fails⟩
  sound index other is well := by
    dsimp only at is
    by_cases among : ∃ item' ∈ item :: rest, item'.2 = index
    · rw [results.assign_of_mem among] at is
      cases is
      rw [fails] at well
      cases well
    · rw [results.assign_of_not fun item' member same => among ⟨item', member, same⟩] at is
      exact .inl is

theorem enter_advances (laned : Laned lane part) (shape : lane = done ++ rest)
    (before : ∀ other ∈ done, (results other.2).isSome) (vacant : ∀ other ∈ rest, results other.2 = none)
    (reached : Reached trace part bound) (beyond : ∀ other ∈ rest, bound < other.1.sequence) :
    Advances num lane part trace results (fun _ _ => False) (enter opts num results rest) := by
  unfold enter
  cases rest with
  | nil =>
    refine ⟨?_, .nil, by simp, ⟨fun _ _ is => is, fun _ is _ => is⟩, by simp, fun _ _ is _ => .inl is⟩
    rw [append_nil] at shape
    subst shape
    exact before
  | cons item rest =>
    have reached := reached.mono (le_of_lt (beyond item mem_cons_self))
    dsimp only
    cases begun : beginEnvelope opts item.1 with
    | inr error => exact fails_advances rfl laned shape before vacant reached
    | inl work =>
      have adds : Adds trace (noticesOf item.1 work) part := by
        cases work with
        | handling => exact .one (laned.own item (by simp [shape])) reached
        | sleeping attempt | burying attempts error => exact .nil
      have here : Reached (trace ++ noticesOf item.1 work) part item.1.sequence := by
        cases work with
        | handling => exact reached.snoc (le_refl _) rfl
        | sleeping attempt | burying attempts error => simpa [noticesOf] using reached
      have listed : ∀ notice ∈ noticesOf item.1 work, ∃ item ∈ lane, notice.event = item.1 := by
        cases work with
        | handling => exact forall_mem_singleton.mpr ⟨item, by simp [shape], rfl⟩
        | sleeping attempt | burying attempts error => simp [noticesOf]
      refine ⟨⟨rfl, done, shape, before, vacant, here⟩, adds, listed, ⟨fun _ _ is => is, fun _ is _ => is⟩, ?_,
        fun _ _ is _ => .inl is⟩
      intro notice among failed
      cases work with
      | handling =>
        rw [mem_singleton.mp among] at failed
        cases failed
      | sleeping attempt | burying attempts error => cases among

theorem settle_advances (laned : Laned lane part)
    (stands : Stands num lane part results trace (.busy num item rest work)) :
    Advances num lane part trace results (fun index gained => index = item.2 ∧ gained = res)
      (settle opts num item rest results res) := by
  obtain ⟨-, done, shape, before, vacant, reached⟩ := stands
  cases fails : res.isFailed with
  | true =>
    have advances : Advances num lane part trace results _ _ :=
      fails_advances fails laned shape before vacant reached
    cases res with
    | failed =>
      exact { advances with sound := fun index other is well => (advances.sound index other is well).imp_right False.elim }
    | processed eventId | deadLettered eventId => cases fails
  | false =>
    have ascending := laned.ascending
    rw [shape] at ascending
    have later := (pairwise_cons.mp (pairwise_append.mp ascending).2.1).1
    have first : Grows lane results (results.assign [item] res) := results.assign_grows res
      (forall_mem_singleton.mpr (by simp [shape]))
      (forall_mem_singleton.mpr (vacant item mem_cons_self))
    have notice : Adds trace [.settled item.1 false] part := .one (laned.own item (by simp [shape])) reached
    have shape' : lane = (done ++ [item]) ++ rest := by
      rw [shape, append_assoc]
      rfl
    have next : Advances num lane part (trace ++ [.settled item.1 false]) (results.assign [item] res)
        (fun _ _ => False) (enter opts num (results.assign [item] res) rest) := enter_advances laned shape'
      (fun other among => by
        rcases mem_append.mp among with among | among
        · obtain ⟨held, is⟩ := isSome_iff_exists.mp (before other among)
          exact isSome_iff_exists.mpr ⟨held, first.kept _ _ is⟩
        · exact isSome_iff_exists.mpr ⟨res, results.assign_of_mem ⟨item, by simp, by rw [mem_singleton.mp among]⟩⟩)
      (fun other among => by
        rw [results.assign_of_not, vacant other (.tail _ among)]
        intro item' member same
        rw [mem_singleton.mp member] at same
        exact absurd same (later other among).2.ne)
      (reached.snoc (le_refl _) rfl) (fun other among => (later other among).1)
    have whole : Advances num lane part trace results (fun index gained => index = item.2 ∧ gained = res)
        { enter opts num (results.assign [item] res) rest with
          notices := .settled item.1 false :: (enter opts num (results.assign [item] res) rest).notices } :=
      { stands := by
          have := next.stands
          rwa [append_assoc] at this
        adds := notice.trans next.adds
        listed := forall_mem_cons.mpr ⟨⟨item, by simp [shape], rfl⟩, next.listed⟩
        grows := first.trans next.grows
        failing := fun notice among failed => by
          rcases mem_cons.mp among with rfl | among
          · cases failed
          · exact next.failing notice among failed
        sound := fun index other is well => by
          rcases next.sound index other is well with is | none
          · by_cases here : ∃ item' ∈ [item], item'.2 = index
            · rw [results.assign_of_mem here] at is
              obtain ⟨item', member, same⟩ := here
              rw [mem_singleton.mp member] at same
              exact .inr ⟨same.symm, (some.inj is).symm⟩
            · rw [results.assign_of_not fun item' member same => here ⟨item', member, same⟩] at is
              exact .inl is
          · exact none.elim }
    cases res with
    | failed => cases fails
    | processed eventId | deadLettered eventId => exact whole

theorem stay_advances (laned : Laned lane part) (stands : Stands num lane part results trace (.busy num item rest work))
    (told : notices = [] ∨ ∃ attempt, notices = [.began item.1 attempt]) :
    Advances num lane part trace results (fun _ _ => False)
      ⟨.busy num item rest further, results, notices⟩ := by
  obtain ⟨-, done, shape, before, vacant, reached⟩ := stands
  have own := laned.own item (by simp [shape])
  rcases told with rfl | ⟨_, rfl⟩
  · exact ⟨⟨rfl, done, shape, before, vacant, by simpa using reached⟩, .nil, by simp,
      ⟨fun _ _ is => is, fun _ is _ => is⟩, by simp, fun _ _ is _ => .inl is⟩
  refine ⟨⟨rfl, done, shape, before, vacant, reached.snoc (le_refl _) rfl⟩, .one own reached,
    forall_mem_singleton.mpr ⟨item, by simp [shape], rfl⟩, ⟨fun _ _ is => is, fun _ is _ => is⟩, ?_, fun _ _ is _ => .inl is⟩
  intro notice among failed
  rw [mem_singleton.mp among] at failed
  cases failed

/-- The workers of a page, as long as none has thrown: each has a lane for itself, and what is neither ahead of them
nor under way has its results. -/
structure PoolSound (items : List Event) (high : Nat) (trace : List Notice) (whole : Prop) (covered : Event → Prop) (pool : Pool) :
    Prop where
  lanes : pool.lanes = lanesOf items
  ascending : items.Pairwise (·.sequence < ·.sequence)
  bounded : ∀ event ∈ items, event.sequence ≤ high
  seen : ∀ notice ∈ trace, notice.event.sequence ≤ high
  held : ∀ (place number : Nat) item rest work, pool.workers[place]? = some (.busy number item rest work) →
    number < pool.cursor ∧ ∃ lane, pool.lanes[number]? = some lane ∧
      Stands number lane (partitionOf item.1) pool.results trace (.busy number item rest work)
  apart : ∀ (place other : Nat) number, place ≠ other → pool.workers[place]?.bind Worker.holds = some number →
    pool.workers[other]?.bind Worker.holds ≠ some number
  ahead : ∀ number, pool.cursor ≤ number → ∀ lane, pool.lanes[number]? = some lane →
    (∀ item ∈ lane, pool.results item.2 = none) ∧
      ∃ bound, ∀ item ∈ lane, bound < item.1.sequence ∧ Reached trace (partitionOf item.1) bound
  told : trace.Pairwise Notice.Follows
  results : ∀ index result, pool.results index = some result → result.isFailed = false →
    ∃ event, items[index]? = some event ∧ covered event
  failing : ∀ notice ∈ trace, notice.failed = true →
    ∃ index result, index < items.length ∧ pool.results index = some result ∧ result.isFailed = true
  passed : whole → ∀ number, number < pool.cursor → ∀ lane, pool.lanes[number]? = some lane →
    (∀ place : Nat, pool.workers[place]?.bind Worker.holds ≠ some number) → ∀ item ∈ lane, (pool.results item.2).isSome
  finished : whole → ∀ place : Nat, pool.workers[place]? = some .gone → pool.lanes.length ≤ pool.cursor

variable {high : Nat} {whole : Prop} {covered : Event → Prop} {pool : Pool}

theorem PoolSound.laned (sound : PoolSound items high trace whole covered pool) (found : pool.lanes[num]? = some lane)
    (among : item ∈ lane) : Laned lane (partitionOf item.1) := by
  rw [sound.lanes] at found
  exact ⟨fun other member => lane_partition found member among, lane_ascending sound.ascending found⟩

private theorem set_bind_holds (workers : List Worker) (worker : Worker) (other : Nat) (ne : place ≠ other) :
    (workers.set place worker)[other]?.bind Worker.holds = workers[other]?.bind Worker.holds := by
  rw [getElem?_set_ne ne]

variable (sound : PoolSound items high trace whole covered pool)
include sound

/-- The worker at `place` goes on in the lane it has for itself. -/
theorem PoolSound.advance (found : pool.lanes[num]? = some lane) (laned : Laned lane part)
    (present : place < pool.workers.length)
    (alone : ∀ other, other ≠ place → pool.workers[other]?.bind Worker.holds ≠ some num)
    (own : ∀ held, pool.workers[place]?.bind Worker.holds = some held → held = num) (within : num < cursor)
    (moved : cursor = pool.cursor ∨ cursor = pool.cursor + 1 ∧ num = pool.cursor)
    (advances : Advances num lane part trace pool.results gains progress)
    (gained : ∀ index res, res.isFailed = false → gains index res → ∃ event, items[index]? = some event ∧ covered event)
    : PoolSound items high (trace ++ progress.notices) whole covered
      { pool with cursor, workers := pool.workers.set place progress.worker, results := progress.results } := by
  have here : (pool.workers.set place progress.worker)[place]? = some progress.worker :=
    getElem?_set_self present
  have less : pool.cursor ≤ cursor := by omega
  have elsewhere : ∀ {index : Nat} {other : List Item}, pool.lanes[index]? = some other → index ≠ num →
      (∀ item ∈ other, ∀ item' ∈ lane, item'.2 ≠ item.2) ∧ ∀ item ∈ other, part ≠ partitionOf item.1 := by
    intro index other is ne
    rw [sound.lanes] at is found
    refine ⟨fun item member item' member' same => ne (lanes_index is found member member' same.symm), ?_⟩
    intro item member same
    obtain ⟨head, among⟩ : ∃ head, head ∈ lane := by
      obtain ⟨_, stands, -⟩ := lane_eq found
      exact exists_mem_of_ne_nil _ (mem_groups (mem_of_getElem? stands)).2
    exact ne (lanes_apart is found member among (same.symm.trans (laned.own head among).symm))
  refine
    { lanes := sound.lanes, ascending := sound.ascending, bounded := sound.bounded, seen := ?_, held := ?_, apart := ?_
      ahead := ?_, told := advances.adds.told sound.told, results := ?_, failing := ?_, passed := ?_, finished := ?_ }
  · intro notice among
    rcases mem_append.mp among with among | among
    · exact sound.seen notice among
    obtain ⟨item, member, same⟩ := advances.listed notice among
    rw [sound.lanes] at found
    rw [same]
    exact sound.bounded _ (mem_of_getElem? (lane_item found member))
  · intro other number' item rest work busy
    by_cases same : place = other
    · subst same
      rw [here] at busy
      have stands := advances.stands
      rw [some.inj busy] at stands
      obtain ⟨rfl, done, shape, facts⟩ := stands
      refine ⟨within, lane, found, rfl, done, shape, facts.1, facts.2.1, ?_⟩
      rw [laned.own item (by simp [shape])]
      exact facts.2.2
    rw [getElem?_set_ne same] at busy
    obtain ⟨bound, other', is, -, done, shape, before, vacant, reached⟩ := sound.held _ _ _ _ _ busy
    have ne : number' ≠ num := by
      rintro rfl
      exact alone other (Ne.symm same) (by simp [busy, Worker.holds])
    obtain ⟨indices, parts⟩ := elsewhere is ne
    refine ⟨lt_of_lt_of_le bound less, other', is, rfl, done, shape, fun item member => ?_, fun item member => ?_,
      reached.append advances.adds (parts item (by simp [shape]))⟩
    · obtain ⟨res, held⟩ := isSome_iff_exists.mp (before item member)
      exact isSome_iff_exists.mpr ⟨res, advances.grows.kept _ _ held⟩
    · exact advances.grows.within _ (vacant item member)
        (indices item (by rw [shape]; exact mem_append_right done member))
  · intro one two number' ne holds
    have lanesOf : ∀ {other : Nat}, other = place →
        (pool.workers.set place progress.worker)[other]?.bind Worker.holds = some number' → number' = num := by
      rintro other rfl holds
      rw [here] at holds
      have stands := advances.stands
      cases worker : progress.worker with
      | busy =>
        rw [worker] at stands holds
        exact (some.inj holds).symm.trans stands.1
      | idle | gone =>
        rw [worker] at holds
        cases holds
    by_cases first : one = place
    · have is := lanesOf first holds
      subst is
      rw [set_bind_holds _ _ _ (by rintro rfl; exact ne first)]
      exact alone two (by rintro rfl; exact ne first)
    by_cases second : two = place
    · intro also
      have is := lanesOf second also
      subst is
      rw [set_bind_holds _ _ _ (Ne.symm first)] at holds
      exact alone one first holds
    · rw [set_bind_holds _ _ _ (Ne.symm first)] at holds
      rw [set_bind_holds _ _ _ (Ne.symm second)]
      exact sound.apart one two number' ne holds
  · intro number' bound lane' is
    obtain ⟨vacant, limit, under⟩ := sound.ahead number' (by dsimp only at bound; omega) lane' is
    have ne : number' ≠ num := by
      dsimp only at bound
      omega
    obtain ⟨indices, parts⟩ := elsewhere is ne
    exact ⟨fun item member => advances.grows.within _ (vacant item member) (indices item member), limit,
      fun item member => ⟨(under item member).1, (under item member).2.append advances.adds (parts item member)⟩⟩
  · intro index res is well
    rcases advances.sound index res is well with held | gain
    · exact sound.results index res held well
    · exact gained index res well gain
  · intro notice among failed
    rcases mem_append.mp among with among | among
    · obtain ⟨index, res, bound, is, fails⟩ := sound.failing notice among failed
      exact ⟨index, res, bound, advances.grows.kept _ _ is, fails⟩
    obtain ⟨item, member, res, is, fails⟩ := advances.failing notice among failed
    rw [sound.lanes] at found
    exact ⟨item.2, res, (List.getElem?_eq_some_iff.mp (lane_item found member)).1, is, fails⟩
  · intro holds number' bound lane' is unheld item member
    dsimp only at bound unheld is
    by_cases same : number' = num
    · subst same
      rw [found] at is
      cases is
      have stands := advances.stands
      have mine := unheld place
      rw [here] at mine
      cases worker : progress.worker with
      | idle =>
        rw [worker] at stands
        exact stands item member
      | busy =>
        rw [worker] at stands mine
        exact absurd (congrArg some stands.1) mine
      | gone =>
        rw [worker] at stands
        exact stands.elim
    · obtain ⟨res, held⟩ := isSome_iff_exists.mp
        (sound.passed holds number' (by omega) lane' is (fun other => by
          by_cases mine : other = place
          · subst mine
            intro holds
            exact same (own number' holds)
          · have := unheld other
            rwa [set_bind_holds _ _ _ (Ne.symm mine)] at this) item member)
      exact isSome_iff_exists.mpr ⟨res, advances.grows.kept _ _ held⟩
  · intro holds other gone
    by_cases same : place = other
    · subst same
      rw [here] at gone
      have stands := advances.stands
      rw [some.inj gone] at stands
      exact stands.elim
    · rw [getElem?_set_ne same] at gone
      exact (sound.finished holds other gone).trans less

theorem PoolSound.leave (present : place < pool.workers.length)
    (ends : remains → whole ∧ pool.workers[place]?.bind Worker.holds = none ∧ pool.lanes.length ≤ pool.cursor) :
    PoolSound items high trace remains covered { pool with workers := pool.workers.set place .gone } := by
  have gone : ∀ other num, (pool.workers.set place .gone)[other]?.bind Worker.holds = some num →
      other ≠ place ∧ pool.workers[other]?.bind Worker.holds = some num := by
    intro other num holds
    by_cases same : place = other
    · subst same
      rw [getElem?_set_self present] at holds
      cases holds
    · rw [set_bind_holds _ _ _ same] at holds
      exact ⟨Ne.symm same, holds⟩
  refine { sound with held := ?_, apart := ?_, passed := ?_, finished := ?_ }
  · intro other num item rest work busy
    have ne : other ≠ place := (gone other num (by rw [busy]; rfl)).1
    rw [getElem?_set_ne (Ne.symm ne)] at busy
    exact sound.held other num item rest work busy
  · intro one two num ne first second
    exact sound.apart one two num ne (gone one num first).2 (gone two num second).2
  · intro holds num bound lane is unheld
    obtain ⟨all, free, -⟩ := ends holds
    refine sound.passed all num bound lane is fun other held => ?_
    by_cases same : place = other
    · subst same
      rw [free] at held
      cases held
    · exact unheld other (by rwa [set_bind_holds _ _ _ same])
  · intro holds _ _
    exact (ends holds).2.2

theorem PoolSound.mono (less : remains → whole) (more : ∀ event, covered event → further event) :
    PoolSound items high trace remains further pool :=
  { sound with
    results := fun index res is well =>
      (sound.results index res is well).imp fun event both => ⟨both.1, more event both.2⟩
    passed := fun holds => sound.passed (less holds)
    finished := fun holds => sound.finished (less holds) }

private theorem PoolSound.busy (here : pool.workers[place]? = some (.busy num item rest work)) :
    ∃ lane, Laned lane (partitionOf item.1) ∧ items[item.2]? = some item.1 ∧
      Stands num lane (partitionOf item.1) pool.results trace (.busy num item rest work) ∧
      ∀ (progress : Progress) gains, Advances num lane (partitionOf item.1) trace pool.results gains progress →
        (∀ index res, res.isFailed = false → gains index res → ∃ event, items[index]? = some event ∧ covered event) →
        PoolSound items high (trace ++ progress.notices) whole covered
          { pool with workers := pool.workers.set place progress.worker, results := progress.results } := by
  obtain ⟨within, lane, found, stands⟩ := sound.held _ _ _ _ _ here
  obtain ⟨_, shape, -⟩ := stands.2
  have among : item ∈ lane := by simp [shape]
  have stays : items[item.2]? = some item.1 := by
    have found := found
    rw [sound.lanes] at found
    exact lane_item found among
  refine ⟨lane, sound.laned found among, stays, stands, fun progress gains advances gained => ?_⟩
  refine sound.advance found (sound.laned found among) (List.getElem?_eq_some_iff.mp here).1 ?_ ?_ within (.inl rfl)
    advances gained
  · intro other ne
    exact sound.apart place other num (Ne.symm ne) (by rw [here]; rfl)
  intro held is
  rw [here] at is
  exact (some.inj is).symm

theorem PoolSound.step (here : pool.workers[place]? = some worker) (steps : pool.step opts worker move = some effect)
    (handled : ∀ event ∈ effect.handled, covered event) (buried : ∀ letter ∈ effect.buried, covered letter.event) :
    PoolSound items high (trace ++ effect.progress.notices) (whole ∧ effect.thrown = none) covered
      (pool.after place effect) := by
  have present : place < pool.workers.length := (List.getElem?_eq_some_iff.mp here).1
  unfold Pool.step at steps
  split at steps
  · -- The next lane, if there is one.
    cases found : pool.lanes[pool.cursor]? with
    | none =>
      rw [found] at steps
      cases steps
      rw [append_nil]
      refine (sound.leave present fun both => ⟨both.1, by rw [here]; rfl, ?_⟩)
      exact getElem?_eq_none_iff.mp found
    | some lane =>
      rw [found] at steps
      cases steps
      obtain ⟨vacant, _, under⟩ := sound.ahead pool.cursor (le_refl _) lane found
      obtain ⟨head, among⟩ : ∃ head, head ∈ lane := by
        rw [sound.lanes] at found
        obtain ⟨_, stands, -⟩ := lane_eq found
        exact exists_mem_of_ne_nil _ (mem_groups (mem_of_getElem? stands)).2
      have advances : Advances pool.cursor lane (partitionOf head.1) trace pool.results _
          (enter opts pool.cursor pool.results lane) :=
        enter_advances (sound.laned found among) (nil_append lane).symm (by simp) vacant (under head among).2
          fun item member => (under item member).1
      refine (sound.advance found (sound.laned found among) present ?_ ?_ (lt_succ_self _) (.inr ⟨rfl, rfl⟩) advances
        fun _ _ _ none => none.elim).mono (fun both => both.1) fun _ same => same
      · intro other ne holds
        obtain ⟨worker, is, lane⟩ := bind_eq_some_iff.mp holds
        cases worker with
        | busy =>
          cases lane
          exact absurd (sound.held _ _ _ _ _ is).1 (lt_irrefl _)
        | idle | gone => cases lane
      · intro held is
        rw [here] at is
        cases is
  · next num item rest attempt out =>
    obtain ⟨lane, laned, stays, stands, goes⟩ := sound.busy here
    split at steps
    · cases steps
      refine (goes _ _ (settle_advances laned stands) fun index res _ is => ?_).mono (·.1) fun _ same => same
      obtain ⟨rfl, rfl⟩ := is
      exact ⟨item.1, stays, handled item.1 (mem_singleton_self _)⟩
    split at steps
    · cases steps
      exact (goes _ _ (stay_advances laned stands (.inl rfl)) fun _ _ _ none => none.elim).mono (·.1) fun _ same => same
    · cases steps
      refine (goes _ _ (settle_advances laned stands) fun index res well is => ?_).mono (·.1) fun _ same => same
      obtain ⟨-, rfl⟩ := is
      cases well
  · next num item rest attempt =>
    obtain ⟨lane, laned, stays, stands, goes⟩ := sound.busy here
    cases steps
    exact (goes _ _ (stay_advances laned stands (.inr ⟨attempt + 1, rfl⟩)) fun _ _ _ none => none.elim).mono (·.1)
      fun _ same => same
  · next num item rest attempts error err effective =>
    obtain ⟨_, laned, stays, stands, goes⟩ := sound.busy here
    split at steps
    · cases steps
      refine (goes _ _ (settle_advances laned stands) fun index res _ is => ?_).mono (·.1) fun _ same => same
      obtain ⟨rfl, rfl⟩ := is
      exact ⟨item.1, stays, buried ⟨item.1, attempts, error⟩ (mem_singleton_self _)⟩
    · cases steps
      rw [append_nil]
      exact sound.leave present fun both => nomatch both.2
  · cases steps

end Applik8s.Processors
