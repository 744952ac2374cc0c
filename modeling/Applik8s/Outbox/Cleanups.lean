import Applik8s.Outbox.ObligationProofs

/-! Cleanups. What their statements find is done with; it stays so until they commit, whatever others do
in between. A cleanup that is given the time after the audit window of a queued command takes its
admission, and the reference that keeps its catalog. -/
namespace Applik8s.Outbox
open Lib List
variable {parse : Parse} {world : World} {own : Deletions} {channel : Channel}

theorem mem_candidates {batchSize : Nat} {α : Type} {time : α → Int} {id : α → String} {holds : α → Bool}
    {rows : List α} {row : α} (among : row ∈ (inOrder time id (rows.filter holds)).take batchSize)
    : row ∈ rows ∧ holds row = true :=
  mem_filter.mp ((mem_insertionSort _).mp (mem_of_mem_take among))

theorem mem_vacated : scope ∈ world.database.vacated own ↔
    ∃ inbox ∈ world.database.inbox, inbox ∈ own.inbox ∧ inbox.scope = scope := by
  simp [Database.vacated, and_assoc]

theorem published_of_before {row : OutboxRow} (before : row.publishedBefore cutoff) : row.publishedAt ≠ none := by
  intro pending
  rw [OutboxRow.publishedBefore, pending] at before
  cases before

section
variable (deletes : world.Deletes parse own)
include deletes

theorem World.Deletes.without (stored : row ∈ world.database.outbox channel) :
    row ∈ (world.database.without own).outbox channel ∨ row.publishedBefore own.cutoff := by
  by_cases taken : row ∈ own.outbox channel
  · exact .inr (deletes.outbox channel row taken).1
  by_cases vacated : row.scope ∈ world.database.vacated own
  · obtain ⟨inbox, here, deleted, same⟩ := mem_vacated.mp vacated
    exact .inr (((deletes.inbox inbox deleted).2 here).2 channel row stored same.symm)
  · exact .inl (mem_filter.mpr ⟨stored, by simp [taken, vacated]⟩)

theorem World.Deletes.deleteOutbox (sound : world.Sound parse) : world.Deletes parse { own with
      outbox := Function.update own.outbox channel
        ((world.database.without own).outboxCandidates bindingIds own.cutoff batchSize channel) } := by
  refine { deletes with outbox := fun other row among => ?_ }
  by_cases same : other = channel
  · subst same
    dsimp only at among
    rw [Function.update_self] at among
    obtain ⟨among, holds⟩ := mem_candidates among
    obtain ⟨-, before⟩ := Bool.and_eq_true_iff.mp holds
    exact ⟨before, sound.marked other row (mem_filter.mp among).1 (published_of_before before)⟩
  · dsimp only at among
    rw [Function.update_of_ne same] at among
    exact deletes.outbox other row among

theorem World.Deletes.deleteInbox (sound : world.Sound parse) :
    world.Deletes parse { own with inbox :=
      (world.database.without own).inboxCandidates bindingIds own.cutoff batchSize auditCutoff } := by
  refine { deletes with inbox := fun inbox among => ?_ }
  obtain ⟨among, holds⟩ := mem_candidates among
  simp only [Bool.and_eq_true, decide_eq_true_eq] at holds
  obtain ⟨⟨-, resulted⟩, all⟩ := holds
  refine ⟨sound.drawn inbox (mem_filter.mp among).1, fun _ => ⟨(mem_filter.mp resulted).1, ?_⟩⟩
  intro channel row stored same
  rcases deletes.without stored with kept | before
  · have all := all_eq_true.mp all channel (by cases channel <;> simp)
    have holds := all_eq_true.mp all row kept
    simpa [same] using holds
  · exact before

theorem World.Deletes.deleteAdmissions (sound : world.Sound parse)
    (careful : world.Careful (.deleteAdmissions bindingIds auditCutoff batchSize own)) :
    world.Deletes parse { own with admissions :=
      (world.database.without own).admissionCandidates bindingIds batchSize auditCutoff } := by
  refine { deletes with admissions := fun row among => ?_ }
  obtain ⟨among, holds⟩ := mem_candidates among
  simp only [Bool.and_eq_true, decide_eq_true_eq] at holds
  have stored := (mem_filter.mp among).1
  exact ⟨careful row stored holds.1.1 holds.1.2, sound.recorded _ (mem_map.mpr ⟨row, stored, rfl⟩)⟩

theorem World.Deletes.deleteReference (deleted : row ∈ own.admissions) :
    world.Deletes parse { own with references := own.references ++ [row.reference] } := by
  refine { deletes with references := fun ref among => ?_ }
  rcases mem_append.mp among with before | last
  · exact deletes.references ref before
  obtain rfl := mem_singleton.mp last
  obtain ⟨executed, admitted⟩ := deletes.admissions row deleted
  exact ⟨row.scope, admitted, executed⟩

end

open World (Sound answer)

theorem World.Sound.commit (sound : world.Sound parse) (deletes : world.Deletes parse own) :
    Sound parse { world with database := world.database.without own } ∧
      world.Follows { world with database := world.database.without own } := by
  constructor
  · constructor
    · constructor
      · intro channel row owed
        rcases sound.owed channel row owed with ⟨stored, here, id, scope, envelope⟩ | sent
        · rcases deletes.without here with kept | before
          · exact .inl ⟨stored, kept, id, scope, envelope⟩
          · exact .inr ((sound.marked channel stored here (published_of_before before)).same id.symm envelope.symm)
        · exact .inr sent
      · intro scope ref admitted queued
        obtain ⟨held, kept⟩ := sound.stands scope ref admitted queued
        constructor
        · obtain ⟨row, stored, is⟩ := mem_map.mp held
          refine mem_map.mpr ⟨row, mem_filter.mpr ⟨stored, ?_⟩, is⟩
          have same : row.scope = scope := congrArg Prod.fst is
          simpa using fun deleted => queued (same ▸ (deletes.admissions row deleted).1)
        refine mem_filter.mpr ⟨kept, ?_⟩
        simp only [decide_eq_true_eq]
        intro deleted
        obtain ⟨other, admitted', executed⟩ := deletes.references ref deleted
        obtain rfl : other = scope := sound.unshared _ admitted' _ admitted rfl
        exact queued executed
    · exact fun channel row among => sound.marked channel row (mem_filter.mp among).1
    · exact sound.admissions.sublist (filter_sublist.map _)
    · exact sound.inbox.sublist (filter_sublist.map _)
    · exact fun inbox among => sound.drawn inbox (mem_filter.mp among).1
    · exact fun inbox among => sound.entered inbox (mem_filter.mp among).1
    · exact fun scope among => sound.resulted scope (mem_filter.mp among).1
    · exact fun pair held => sound.recorded pair ((filter_sublist.map _).subset held)
    · exact sound.unshared
  · refine { World.Follows.refl world with
      inbox := fun inbox among _ => ?_
      references := fun ref kept => ?_ }
    · obtain ⟨here, stays⟩ := mem_filter.mp among
      refine ⟨here, fun cutoff closed => ⟨mem_filter.mpr ⟨closed.1, ?_⟩, fun channel row stored =>
        closed.2 channel row (mem_filter.mp stored).1⟩⟩
      simp only [decide_eq_true_eq]
      intro vacated
      obtain ⟨_, there, deleted, same⟩ := mem_vacated.mp vacated
      obtain rfl := inj_on_of_nodup_map sound.inbox there here same
      simp only [decide_eq_true_eq] at stays
      exact stays deleted
    · by_cases deleted : ref ∈ own.references
      · exact .inr (deletes.references ref deleted)
      · exact .inl (mem_filter.mpr ⟨kept, by simpa using deleted⟩)

theorem answer_sound (choice : Choice) (permitted : permits parse phase req) (sound : world.Sound parse)
    (agrees : Agrees parse world op phase) (careful : world.Careful req) :
    (answer req choice world).2.Sound parse ∧ world.Follows (answer req choice world).2 ∧
      Agrees parse (answer req choice world).2 op
        (afterwards phase req (answer req choice world).1) := by
  cases phase with
  | idle =>
    cases req with
    | selectPending => exact ⟨sound, .refl world, trivial⟩
    | publish channel envelope =>
      obtain ⟨acknowledges, reaches⟩ | silent : (choice.reaches = true ∧ choice.acknowledged = true) ∨
          (choice.reaches && choice.acknowledged) = false := by
        cases choice.reaches <;> cases choice.acknowledged <;> simp
      · have kept := sound.publish (channel, envelope)
        simp only [answer, acknowledges, reaches, Bool.and_self, if_true]
        exact ⟨kept.1, kept.2, mem_append_right _ mem_cons_self⟩
      have kept : ∀ sent : Bool, Sound parse (if sent then
          { world with published := world.published ++ [(channel, envelope)] } else world) ∧
          world.Follows (if sent then
            { world with published := world.published ++ [(channel, envelope)] } else world) := by
        rintro (_ | _)
        · exact ⟨sound, .refl world⟩
        · exact sound.publish (channel, envelope)
      simp only [answer, silent, Bool.false_eq_true, if_false]
      exact ⟨(kept _).1, (kept _).2, trivial⟩
    | putReference =>
      refine ⟨{ sound with stands := fun scope kept admitted queued => ?_ }, ?_, ?_⟩
      · exact (sound.stands scope kept admitted queued).imp_right (mem_append_left _)
      · exact { World.Follows.refl world with references := fun _ kept => .inl (mem_append_left _ kept) }
      · exact .inl (mem_append_right _ mem_cons_self)
    | execute =>
      obtain ⟨kept, follows⟩ := sound.execute choice careful
      exact ⟨kept, follows, trivial⟩
    | _ => exact permitted.elim
  | sent =>
    cases req with
    | acknowledged => exact ⟨sound, .refl world, agrees⟩
    | markPublished =>
      obtain ⟨rfl, _, readable⟩ := permitted
      obtain ⟨kept, follows⟩ := sound.markPublished agrees readable careful
      exact ⟨kept, follows, trivial⟩
    | _ => exact permitted.elim
  | reserved ref =>
    cases req with
    | persistAdmission admission =>
      obtain rfl : admission.reference = ref := permitted
      simp only [answer, World.persistAdmission]
      cases done : world.database.persistAdmission choice.now admission _ with
      | error => exact ⟨sound, .refl world, trivial⟩
      | ok =>
        have unshared : ∀ pair ∈ some admission.pair, world.Unshared pair := by
          rintro pair ⟨⟩
          exact careful
        obtain ⟨kept, follows⟩ := sound.persist (persistAdmission_ok sound.admissions done) unshared (by
          rintro _ ⟨⟩
          refine agrees.imp_right ?_
          rintro ⟨scope, admitted, executed⟩
          obtain rfl : scope = admission.scope := unshared _ rfl _ admitted rfl
          exact executed)
        exact ⟨kept, follows, trivial⟩
    | _ => exact permitted.elim
  | cleaning own =>
    obtain ⟨whose, deletes⟩ := agrees
    cases req with
    | deleteOutbox _ _ _ now =>
      obtain rfl : now = own := permitted
      exact ⟨sound, .refl world, whose, deletes.deleteOutbox sound⟩
    | deleteInbox _ _ _ now =>
      obtain rfl : now = own := permitted
      exact ⟨sound, .refl world, whose, deletes.deleteInbox sound⟩
    | deleteAdmissions _ _ _ now =>
      obtain rfl : now = own := permitted
      exact ⟨sound, .refl world, whose, deletes.deleteAdmissions sound careful⟩
    | deleteReference =>
      obtain ⟨rfl, _, deleted, rfl⟩ := permitted
      exact ⟨sound, .refl world, whose, deletes.deleteReference deleted⟩
    | commit now =>
      obtain rfl : now = own := permitted
      obtain ⟨kept, follows⟩ := sound.commit deletes
      exact ⟨kept, follows, trivial⟩
    | _ => exact permitted.elim

theorem answer_retains (choice : Choice) (sound : world.Sound parse) (stays : ∀ own, req ≠ .commit own) :
    (∀ channel, ∀ row ∈ world.database.outbox channel,
      ∃ stored ∈ (answer req choice world).2.database.outbox channel, stored.id = row.id) ∧
    ∀ inbox ∈ world.database.inbox, inbox ∈ (answer req choice world).2.database.inbox := by
  have same : (∀ channel, ∀ row ∈ world.database.outbox channel,
      ∃ stored ∈ world.database.outbox channel, stored.id = row.id) ∧
      ∀ inbox ∈ world.database.inbox, inbox ∈ world.database.inbox :=
    ⟨fun channel row here => ⟨row, here, rfl⟩, fun _ => id⟩
  cases req with
  | commit own => exact absurd rfl (stays own)
  | publish =>
    simp only [answer]
    split <;> exact same
  | markPublished channel row =>
    refine ⟨fun other row here => ?_, fun _ => id⟩
    obtain ⟨stored, there, id, -⟩ := stored_markPublished here
    exact ⟨stored, there, id⟩
  | persistAdmission admission =>
    simp only [answer, World.persistAdmission]
    cases done : world.database.persistAdmission choice.now admission _ with
    | error => exact same
    | ok =>
      rw [(persistAdmission_ok sound.admissions done).rest]
      exact same
  | execute execution =>
    simp only [answer, World.execute]
    cases done : world.database.execute choice.now world.drawn execution with
    | error => exact same
    | ok res =>
      obtain ⟨_, ran⟩ := res
      obtain ⟨_, admits, ⟨rfl, -, rfl⟩ | ⟨rfl, -, rfl⟩⟩ := execute_ok sound.admissions done
      · rw [admits.rest]
        exact same
      · rw [admits.rest]
        exact ⟨fun channel row here => ⟨row, mem_append_left _ here, rfl⟩, fun _ => mem_append_left _⟩
  | _ => exact same

section
variable {system : System} {event : Event}

/-- The tables are sound, and every process is right about them. -/
abbrev Invariant (parse : Parse) : World → (Nat → Option (Operation × Phase)) → Prop :=
  Pointwise (World.Sound parse) (Agrees parse)

theorem agrees_initial (parse : Parse) (world : World) (op : Operation) : Agrees parse world op op.initial := by
  cases op with
  | cleanup opts clock => exact ⟨⟨opts, clock, rfl, rfl⟩, nofun, nofun, nofun, nofun⟩
  | _ => trivial

theorem keeps (parse : Parse) : Crowd.Keeps server (Operation.body parse) (conduct parse)
    (Invariant parse) CarefulStep Operation.initial :=
  Crowd.keeps_pointwise World.Follows conducted (fun sys _ op _ _ => agrees_initial parse sys.world op)
    (fun _ _ _ _ agrees follows => agrees.follows follows)
    fun _ _ choice _ _ _ _ running careful sound agrees permitted =>
      ⟨trivial, answer_sound choice permitted sound agrees (careful _ _ _ running)⟩

theorem lawful_of_same (same : (next parse sys event).world.database = sys.world.database) :
    Lawful parse sys event where
  outbox channel row here := .inl ⟨row, by rw [same]; exact here, rfl⟩
  inbox inbox here := .inl (by rw [same]; exact here)

theorem lawful_commit (sound : sys.world.Sound parse) (deletes : sys.world.Deletes parse own)
    (committed : (next parse sys event).world.database = sys.world.database.without own)
    {opts : CleanupOptions} {clock : Int} (cleans : Cleans sys opts clock event)
    (cutoff : own.cutoff = opts.publishedCutoff clock) : Lawful parse sys event where
  outbox channel row here := by
    rcases deletes.without here with kept | before
    · exact .inl ⟨row, by rw [committed]; exact kept, rfl⟩
    · exact .inr ⟨sound.marked channel row here (published_of_before before), opts, clock, cleans, cutoff ▸ before⟩
  inbox inbox here := by
    rw [committed]
    by_cases deleted : inbox ∈ own.inbox
    · obtain ⟨resulted, before⟩ := (deletes.inbox inbox deleted).2 here
      refine .inr ⟨resulted, fun channel row owed same => ?_, opts, clock, cleans, cutoff ▸ before⟩
      rcases sound.owed channel row owed with ⟨stored, there, id, scope, envelope⟩ | sent
      · exact (sound.marked channel stored there (published_of_before
          (before channel stored there (scope.trans same)))).same id.symm envelope.symm
      · exact sent
    · exact .inl (mem_filter.mpr ⟨here, by simpa using deleted⟩)

theorem step_lawful (kept : sys.Kept (conduct parse) (Invariant parse)) : Lawful parse sys event := by
  obtain ⟨_, conducted, sound, agrees⟩ := kept
  cases event with
  | stop caller => exact lawful_of_same rfl
  | start =>
    refine lawful_of_same ?_
    simp only [next, Crowd.advance]
    split <;> rfl
  | step caller choice =>
    cases running : sys.callers caller with
    | none => exact lawful_of_same (by simp [next, Crowd.advance, running])
    | some present =>
      obtain ⟨_, prog⟩ := present
      cases prog with
      | done value => exact lawful_of_same (by simp [next, Crowd.advance, running]; rfl)
      | throw error => exact lawful_of_same (by simp [next, Crowd.advance, running]; rfl)
      | call req rest =>
        obtain ⟨phase, here, obeys⟩ := conducted.obeys caller _ _ running
        have after : (next parse sys (.step caller choice)).world =
            (answer req choice sys.world).2 := by
          simp only [next, Crowd.advance, running]
          rfl
        by_cases commits : ∃ own, req = .commit own
        · obtain ⟨own, rfl⟩ := commits
          have permitted := obeys.1
          cases phase with
          | cleaning now =>
            obtain rfl : own = now := permitted
            obtain ⟨⟨_, _, rfl, cutoff⟩, deletes⟩ := agrees _ _ _ here
            exact lawful_commit sound deletes (by rw [after]; rfl) ⟨_, running⟩ cutoff
          | _ => exact permitted.elim
        · have retains := answer_retains choice sound fun own is => commits ⟨own, is⟩
          exact ⟨fun channel row here => .inl (by rw [after]; exact retains.1 channel row here),
            fun inbox here => .inl (by rw [after]; exact retains.2 inbox here)⟩

theorem kept_initial (parse : Parse) : Crowd.Kept (conduct parse) (Invariant parse) ({ world := .empty } : System) :=
  kept_empty ⟨{
    owed := nofun, stands := nofun, marked := nofun, admissions := .nil, inbox := .nil, drawn := nofun
    entered := nofun, resulted := nofun, recorded := nofun, unshared := nofun }, nofun⟩

/-- In a run in which relays mark what they have sent, no two commands share a reference and no cleanup
comes later than its audit window to a queued command: what is owed to the event log is stored or sent, a
queued command has its admission and its reference, and only cleanups remove rows, which are done with. -/
theorem obligations_kept (parse : Parse) (events : List Event)
    (careful : EachStep (next parse) CarefulStep { world := .empty } events) :
    (runFrom (next parse) { world := .empty } events).world.Kept parse ∧
      EachStep (next parse) (Lawful parse) { world := .empty } events := by
  have steps := eachStep_of_steps (Crowd.Kept (conduct parse) (Invariant parse))
    (fun _ event held allowed => (keeps parse).advance event held allowed) (kept_initial parse) careful
  obtain ⟨_, -, sound, -⟩ := (keeps parse).run (kept_initial parse) careful
  exact ⟨sound.toKept, steps.imp fun _ _ _ held => step_lawful held.1⟩

def firstAdmission : Admission where
  scope := "sha256:1"
  command := "orders.v1"
  bindingId := "orders"
  commandId := "command-1"
  receipt := ⟨"receipt-1", "2024-01-01T00:00:00Z", "shop", "revision-1", .null⟩

/-- The message of that command, which puts one event into the outbox. -/
def firstExecution : Execution where
  scope := firstAdmission.scope
  command := firstAdmission.command
  bindingId := firstAdmission.bindingId
  messageId := firstAdmission.commandId
  receipt := some firstAdmission.receipt
  emits
    | .events => [("event-1", .object [("id", .string "event-1"), ("contract", .object []), ("payload", .object [])])]
    | .commands => []

def hourlyCleanup : Operation := .cleanup ⟨["orders"], 1, 1, none, some 3600000000⟩ 0

/-- A process that is started and has so many of its calls answered, all of them well. -/
def process (caller : Nat) (operation : Operation) (calls : Nat) : List Event :=
  .start caller operation :: List.replicate calls (.step caller ⟨0, true, true, false⟩)

def noText : Parse := fun _ => .error "SyntaxError"

/-- A command is admitted, executed, relayed and cleaned up. -/
def cleanedRun : List Event :=
  process 0 (.submit firstAdmission) 2 ++ process 1 (.execute firstExecution) 1 ++
    process 2 (.relay .events none) 4 ++ process 3 hourlyCleanup 6

theorem obligations_kept_cleaned :
    let after := (runFrom (next noText) { world := .empty } cleanedRun).world
    (after.database.inbox = [] ∧ after.database.outbox .events = [] ∧ after.database.references = []) ∧
      after.Kept noText ∧ EachStep (next noText) (Lawful noText) { world := .empty } cleanedRun :=
  ⟨by decide +kernel, obligations_kept noText cleanedRun (by decide +kernel)⟩

/-- A command is admitted and still queued when the cleanup comes. -/
def queuedRun : List Event := process 0 (.submit firstAdmission) 2 ++ process 1 hourlyCleanup 6

theorem obligations_lost :
    let after := (runFrom (next noText) { world := .empty } queuedRun).world
    (firstAdmission.pair ∈ after.admitted ∧ after.executed = [] ∧ after.database.admissions = [] ∧
      after.database.references = []) ∧ ¬ after.Kept noText := by
  refine ⟨by decide +kernel, fun kept => ?_⟩
  have stands := kept.stands firstAdmission.scope firstAdmission.reference (by decide +kernel) (by decide +kernel)
  exact absurd stands.2 (by decide +kernel)

end
end Applik8s.Outbox
