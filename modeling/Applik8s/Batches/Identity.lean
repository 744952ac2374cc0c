import Applik8s.Batches.Keeping

/-! Any number of batch processors at once: a batch identity names one set of events for good, as long as no run stores a
group that it read behind a checkpoint that is not the stored one any more. -/
namespace Applik8s.Batches
open Lib Streams Processors
variable {consumer : Consumer} {read : Source Content} {system : System} {group : Group} {run : Run}

/-! ### Groups and the checkpoint -/

/-- A stored group keeps its membership; the checkpoint moves only to its end, once all its batches are finished, and
then the group is stored no more. -/
structure Advances (system after : System) : Prop where
  membership : ∀ group ∈ system.group, ∀ group' ∈ after.group, group'.fresh = group.fresh
  checkpoint : after.checkpoint = system.checkpoint ∨ ∃ group ∈ system.group,
    after.checkpoint = group.lastSequence ∧ ∀ batch ∈ group.batches, batch ∈ system.finished
  released : ∀ group ∈ system.group, after.group = none → after.checkpoint = group.lastSequence

theorem Advances.same {after : System} (group : after.group = sys.group)
    (mark : after.checkpoint = sys.checkpoint) : Advances sys after where
  membership one is other also := by
    rw [group] at also
    rw [Option.some.inj (is.symm.trans also)]
  checkpoint := .inl mark
  released one is none := by
    rw [group] at none
    exact absurd (none.symm.trans is) nofun

theorem Advances.mark (id batchId : String) (group : after.group = (markBatchComplete sys.group id batchId).2)
    (mark : after.checkpoint = sys.checkpoint) : Advances sys after := by
  have marked : ∀ stored ∈ sys.group, ∃ ids,
      after.group = some { stored with completedBatchIds := stored.completedBatchIds ++ ids } := by
    intro stored is
    rw [group, is]
    unfold markBatchComplete
    dsimp only
    split
    · split
      · exact ⟨[], by simp⟩
      · exact ⟨[batchId], rfl⟩
    · exact ⟨[], by simp⟩
  refine ⟨fun one is other also => ?_, .inl mark, fun one is none => ?_⟩
  · obtain ⟨ids, held⟩ := marked one is
    cases held.symm.trans also
    rfl
  · obtain ⟨_, held⟩ := marked one is
    exact absurd (held.symm.trans none) nofun

theorem freezeBatchGroup_advances (sys : System) (group : Group) :
    Advances sys (sys.freezeBatchGroup group).2 := by
  unfold System.freezeBatchGroup
  split
  · exact .same rfl rfl
  next none =>
  refine ⟨fun one is => ?_, .inl rfl, fun one is => ?_⟩
  · exact absurd (none.symm.trans is) nofun
  · exact absurd (none.symm.trans is) nofun

theorem completeBatchGroup_advances (distinct : Function.Injective consumer.sha256) (sound : sys.Sound consumer)
    (among : group.fresh ∈ sys.frozen) :
    Advances sys (sys.completeBatchGroup group.id group.lastSequence).2 := by
  unfold System.completeBatchGroup
  split
  · exact .same rfl rfl
  next stored is =>
  split
  · next whole =>
    obtain ⟨same, -, all⟩ := whole
    obtain ⟨fresh, above, complete⟩ := sound.stored stored is
    have one : stored.fresh = group.fresh := sound.group_eq distinct fresh among same
    have last : group.fresh.lastSequence = stored.fresh.lastSequence := congrArg Group.lastSequence one.symm
    obtain ⟨event, here⟩ := (sound.groups stored.fresh fresh).exists_event
    have ends := (sound.groups stored.fresh fresh).last event here
    have begins := above event here
    have reaches : max sys.checkpoint group.lastSequence = stored.lastSequence := by
      change max sys.checkpoint group.fresh.lastSequence = stored.fresh.lastSequence
      rw [last]
      omega
    refine ⟨fun _ _ => nofun, .inr ⟨stored, is, reaches, fun batch inside => complete batch inside ?_⟩,
      fun other also _ => ?_⟩
    · exact of_decide_eq_true (List.all_eq_true.mp all batch inside)
    · cases Option.some.inj (also.symm.trans is)
      exact reaches
  · exact .same rfl rfl

theorem goesOn_advances (read : Source Content) (distinct : Function.Injective consumer.sha256) (sound : sys.Sound consumer)
    (knows : run.Knows consumer sys.frozen sys.finished) (err : Option String) (effective : Bool) :
    Advances sys (sys.goesOn consumer read run err effective).1 := by
  have stage := knows.stage
  unfold System.goesOn
  cases is : run.stage with
  | ended => exact .same rfl rfl
  | working =>
    dsimp only
    split <;> exact .same rfl rfl
  | freezing _ _ group =>
    cases err with
    | none => exact freezeBatchGroup_advances sys group
    | some =>
      dsimp only
      split
      · exact freezeBatchGroup_advances sys group
      · exact .same rfl rfl
  | completing _ group =>
    rw [is] at stage
    have advances := completeBatchGroup_advances distinct sound stage
    cases err with
    | none =>
      dsimp only
      generalize sys.completeBatchGroup group.id group.lastSequence = out at advances
      obtain ⟨done, _⟩ := out
      cases done <;> exact advances
    | some =>
      dsimp only
      split
      · exact advances
      · exact .same rfl rfl
  | preparing | loading | reading => cases err <;> exact .same rfl rfl
  | looking =>
    cases err with
    | none =>
      dsimp only
      split <;> exact .same rfl rfl
    | some => exact .same rfl rfl

theorem next_advances (distinct : Function.Injective consumer.sha256) (holds : sys.Invariant consumer)
    (label : Label) : Advances sys (sys.next consumer read label) := by
  have same : Advances sys sys := .same rfl rfl
  cases label with
  | append event => exact .same rfl rfl
  | retain => exact .same rfl rfl
  | start => exact .same rfl rfl
  | main index err effective =>
    unfold System.next
    dsimp only
    cases here : sys.runs[index]? with
    | none => exact same
    | some run =>
      have advances := goesOn_advances read distinct holds.sound (holds.runs run (List.mem_of_getElem? here))
        err effective
      exact ⟨advances.membership, advances.checkpoint, advances.released⟩
  | work =>
    unfold System.next
    dsimp only
    split
    · exact same
    split
    · exact same
    · split
      · exact same
      · next effect stepped =>
        obtain ⟨_, -, is⟩ := Option.bind_eq_some_iff.mp stepped
        rcases step_group is with stays | ⟨id, batchId, marked⟩
        · exact .same stays rfl
        · exact .mark id batchId marked rfl
  | crash index =>
    unfold System.next
    dsimp only
    split <;> exact .same rfl rfl

def SameIdentity (passed : List Batch) : Prop :=
  ∀ one ∈ passed, ∀ two ∈ passed, ∀ event ∈ one.events, event ∈ two.events → one.id = two.id

theorem System.Sound.sameIdentity (sound : system.Sound consumer) : SameIdentity system.passed := by
  intro one first two second event here there
  obtain ⟨_, among, inside⟩ := sound.passed one first
  obtain ⟨_, among', inside'⟩ := sound.passed two second
  exact congrArg Batch.id (sound.batch_unique among among' inside inside' here there rfl)

/-- Whatever the runs do, as long as no group is stored that was read behind another checkpoint than the stored one, and
no batch first passed when its group is stored no more: an event is in the batches of one identity, the batches of a
partition are passed in order, and the checkpoint moves to the end of a group that is through. -/
theorem frozen_batches_keep_identity (consumer : Consumer) (distinct : Function.Injective consumer.sha256)
    (contract : ReadContract read) (log : Log Content) (labels : List Label)
    (timely : EachStep (System.next consumer read) Timely { log } labels) :
    SameIdentity (runFrom (System.next consumer read) { log } labels).passed ∧
      InOrder (runFrom (System.next consumer read) { log } labels).passed ∧
      EachStep (System.next consumer read) (fun system label => Advances system (system.next consumer read label))
        { log } labels := by
  have each := eachStep_of_steps (System.Invariant consumer)
    (fun _ label holds timely => next_keeps distinct contract holds label timely) (invariant_start log) timely
  have last := invariant_of_steps (System.Invariant consumer)
    (fun _ label holds timely => next_keeps distinct contract holds label timely) (invariant_start log) timely
  exact ⟨last.sound.sameIdentity, last.sound.ordered, each.imp fun label _ system met => next_advances distinct met.1 label⟩

def plainOptions : Options where
  maxAttempts := 1
  failure := .pause
  timeoutMs := 1000
  maxInputBytes := 1000
  maxItems := 10
  maxBytes := 1000
  concurrency := 1

def plainConsumer : Consumer where
  processor := "digest"
  streamName := "changes.v1"
  sha256 := String.ofList
  eventBytes _ := 1

def plainEvent (sequence : Nat) : Event := ⟨sequence, ⟨toString sequence, "orders", "", .null⟩⟩
def goesOn (run times : Nat) : List Label := List.replicate times (.main run none true)

/-- A run works through its only batch, and goes on to the next group. -/
def worksThrough (run : Nat) : List Label :=
  [.work run 0 .take, .work run 0 (.decoded (.ok ())), .work run 0 (.handled (.ok ())), .work run 0 (.marked none true),
    .work run 0 .take, .main run none true, .main run none true]

/-- The first run is about to store a group of the first event; the second freezes two events, and is through with them. -/
theorem stale_groups_change_identity : ¬ ∀ labels,
    SameIdentity (runFrom (System.next plainConsumer postgresRead) { log := .empty } labels).passed := by
  intro all
  have stale := all ([.append (plainEvent 1), .start plainOptions] ++ goesOn 0 4 ++
    [.append (plainEvent 2), .start plainOptions] ++ goesOn 1 5 ++ worksThrough 1 ++ goesOn 0 1 ++
    [.work 0 0 .take, .work 0 0 (.decoded (.ok ()))])
  revert stale
  unfold SameIdentity
  decide +kernel

/-- Both runs work through the group that the first has stored, and only one of them stores that it is complete. -/
theorem shared_groups_keep_identity : SameIdentity (runFrom (System.next plainConsumer postgresRead) { log := .empty }
      ([.append (plainEvent 1), .start plainOptions] ++ goesOn 0 5 ++ [.append (plainEvent 2), .start plainOptions] ++
        goesOn 1 3 ++ worksThrough 0 ++ worksThrough 1)).passed ∧
    (runFrom (System.next plainConsumer postgresRead) { log := .empty }
      ([.append (plainEvent 1), .start plainOptions] ++ goesOn 0 5 ++ [.append (plainEvent 2), .start plainOptions] ++
        goesOn 1 3 ++ worksThrough 0 ++ worksThrough 1)).checkpoint = 1 :=
  ⟨(frozen_batches_keep_identity plainConsumer (fun _ _ same => String.ofList_injective same) postgresRead_contract .empty
    _ (by decide +kernel)).1, by decide +kernel⟩

end Applik8s.Batches
