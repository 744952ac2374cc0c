import Applik8s.Outbox.Obligations

/-! What a relay and a cleanup know of the database between their statements, and that nobody else
makes it untrue. -/
namespace Applik8s.Outbox
open Lib List Option Nat
variable {parse : Parse} {world world' : World} {choice : Choice} {channel : Channel} {row : OutboxRow}

inductive Phase where
  | idle
  | sent (channel : Channel) (envelope : Json)
  | reserved (reference : Reference)
  | cleaning (own : Deletions)

def permits (parse : Parse) : Phase → Request → Prop
  | .idle, .selectPending _ _ | .idle, .publish _ _ | .idle, .putReference _ | .idle, .execute _ => True
  | .sent _ _, .acknowledged _ _ => True
  | .sent channel envelope, .markPublished marked row =>
    marked = channel ∧ ∃ id, eventOutboxEnvelope parse row = .ok (envelope, id)
  | .reserved reference, .persistAdmission admission => admission.reference = reference
  | .cleaning own, .deleteOutbox _ _ _ now => now = own
  | .cleaning own, .deleteInbox _ _ _ now => now = own
  | .cleaning own, .deleteAdmissions _ _ _ now => now = own
  | .cleaning own, .deleteReference reference now => now = own ∧ ∃ row ∈ own.admissions, row.reference = reference
  | .cleaning own, .commit now => now = own
  | _, _ => False

def afterwards : Phase → (request : Request) → request.Reply → Phase
  | _, .publish channel envelope, .ok _ => .sent channel envelope
  | _, .markPublished _ _, _ => .idle
  | _, .putReference reference, _ => .reserved reference
  | _, .persistAdmission _, _ => .idle
  | .cleaning own, .deleteOutbox channel _ _ _, rows =>
    .cleaning { own with outbox := Function.update own.outbox channel rows }
  | .cleaning own, .deleteInbox _ _ _ _, rows => .cleaning { own with inbox := rows }
  | .cleaning own, .deleteAdmissions _ _ _ _, rows => .cleaning { own with admissions := rows }
  | .cleaning own, .deleteReference reference _, _ =>
    .cleaning { own with references := own.references ++ [reference] }
  | _, .commit _, _ => .idle
  | phase, _, _ => phase

def conduct (parse : Parse) : Conduct Runtime Phase where
  permits := permits parse
  answers _ _ := True
  after := afterwards

def Operation.initial : Operation → Phase
  | .cleanup options clock => .cleaning (.none (options.publishedCutoff clock))
  | _ => .idle

theorem obeys_relayRows (rows : List OutboxRow) (res : RelayResult) :
    Obeys (conduct parse) (fun _ _ => True) .idle (relayRows parse channel rows res) := by
  induction rows generalizing res with
  | nil => trivial
  | cons row rest ih =>
    rw [relayRows]
    cases readable : eventOutboxEnvelope parse row with
    | error => trivial
    | ok read =>
      obtain ⟨_, id⟩ := read
      refine ⟨trivial, fun reply _ => ?_⟩
      cases reply with
      | error => trivial
      | ok => exact ⟨trivial, fun _ _ => ⟨⟨rfl, id, readable⟩, fun _ _ => ih _⟩⟩

theorem obeys_deleteReferences (rows : List AdmissionRow) (own : Deletions)
    (deleted : ∀ row ∈ rows, row ∈ own.admissions) : Obeys (conduct parse) (fun phase res => match res with
      | .ok own => phase = .cleaning own
      | .error _ => True) (.cleaning own) (deleteReferences rows own) := by
  induction rows generalizing own with
  | nil => rfl
  | cons row rest ih =>
    have later : ∀ row ∈ rest, row ∈ own.admissions := fun row among => deleted row (mem_cons_of_mem _ among)
    rw [deleteReferences]
    split
    · exact ih own later
    · exact ⟨⟨rfl, row, deleted row mem_cons_self, rfl⟩, fun _ _ => ih _ later⟩

theorem obeys_cleanup (opts : CleanupOptions) (clock : Int) :
    Obeys (conduct parse) (fun _ _ => True) (.cleaning (.none (opts.publishedCutoff clock)))
      (cleanupPostgresCommandData opts clock) := by
  unfold cleanupPostgresCommandData
  split
  · trivial
  cases positiveInteger opts.auditWindowSeconds "auditWindowSeconds" with
  | error => trivial
  | ok audit =>
    cases positiveInteger opts.publishedOutboxWindowSeconds "publishedOutboxWindowSeconds" with
    | error => trivial
    | ok =>
      cases positiveInteger (opts.batchSize.getD 1000) "batchSize" with
      | error => trivial
      | ok =>
        refine ⟨rfl, fun eventRows _ => ⟨rfl, fun commandRows _ => ⟨rfl, fun inboxRows _ =>
          ⟨rfl, fun admissionRows _ => ?_⟩⟩⟩⟩
        change Obeys _ _ _ (deleteReferences admissionRows _ >>= _)
        refine obeys_bind.mpr ((obeys_deleteReferences admissionRows _ fun _ => id).weaken ?_)
        rintro _ (_ | _) closed
        · trivial
        · obtain rfl := closed
          exact ⟨rfl, fun _ _ => trivial⟩

theorem conducted (op : Operation) : Obeys (conduct parse) (fun _ _ => True) op.initial (op.body parse) := by
  cases op with
  | relay =>
    refine obeys_bind.mpr ⟨trivial, fun rows _ => ?_⟩
    refine (obeys_relayRows rows ⟨rows.length, 0, 0, []⟩).weaken ?_
    rintro phase (err | value) - <;> trivial
  | cleanup opts clock =>
    refine obeys_bind.mpr ((obeys_cleanup opts clock).weaken ?_)
    rintro _ (_ | _) - <;> trivial
  | submit => exact ⟨trivial, fun _ _ => ⟨rfl, fun reply _ => by cases reply <;> trivial⟩⟩
  | execute => exact ⟨trivial, fun reply _ => by cases reply <;> trivial⟩

section
variable {database' : Database} {now : Int}

/-- The tables after admissions were persisted: nothing else is new or gone. -/
structure Admits (database : Database) (pairs : Option (String × Reference)) (database' : Database) :
    Prop where
  rest : database' = { database with admissions := database'.admissions }
  distinct : (database'.admissions.map (·.scope)).Nodup
  held : ∀ pair, pair ∈ database'.held ↔ pair ∈ database.held ∨ pair ∈ pairs

theorem persistAdmission_ok (distinct : (db.admissions.map (·.scope)).Nodup)
    (done : db.persistAdmission now admission conflict = .ok database') :
    Admits db (some admission.pair) database' := by
  unfold Database.persistAdmission at done
  split at done
  · next absent =>
    cases done
    refine ⟨rfl, ?_, fun pair => by simp [Database.held, eq_comm]⟩
    rw [List.map_append, List.nodup_append]
    refine ⟨distinct, by simp, ?_⟩
    rintro scope among _ last rfl
    obtain ⟨row, stored, rfl⟩ := mem_map.mp among
    have same : row.scope = admission.scope := by simpa using last
    exact List.find?_eq_none.mp absent row stored (by simpa using same)
  next existing found =>
  have stored := List.mem_of_find?_eq_some found
  have scope : existing.scope = admission.scope := by simpa using List.find?_some found
  split at done
  · next same =>
    cases done
    refine ⟨rfl, distinct, fun pair => ⟨.inl, ?_⟩⟩
    rintro (held | ⟨⟨⟩⟩)
    · exact held
    · exact mem_map.mpr ⟨existing, stored, by rw [same]⟩
  split at done
  · next same =>
    cases done
    simp only [Bool.and_eq_true, decide_eq_true_eq, sameEvidence] at same
    obtain ⟨⟨⟨-, -⟩, cmd⟩, ⟨app, rev⟩, -⟩ := same
    -- the row that is replaced keeps its reference
    have replaced : ∀ row ∈ db.admissions, row.scope = admission.scope → row.pair = admission.pair ∧
          ({ row with receipt := admission.receipt } : AdmissionRow).pair = row.pair := by
      intro row among here
      obtain rfl := List.inj_on_of_nodup_map distinct among stored (here.trans scope.symm)
      simp [Admission.pair, Admission.reference, app, rev, cmd, scope]
    have same : ∀ row ∈ db.admissions, (if row.scope = admission.scope then
        { row with receipt := admission.receipt } else row : AdmissionRow).pair = row.pair := by
      intro row among
      split
      · next here => exact (replaced row among here).2
      · rfl
    have held : Database.held { db with
        admissions := db.admissions.map fun row =>
          if row.scope = admission.scope then { row with receipt := admission.receipt } else row } =
        db.held := by
      unfold Database.held
      rw [List.map_map]
      exact List.map_congr_left same
    refine ⟨rfl, ?_, fun pair => ?_⟩
    · have scopes : ∀ rows : List AdmissionRow,
          rows.map (·.scope) = (rows.map (·.pair)).map Prod.fst := fun rows => by
        rw [List.map_map]
        rfl
      rw [scopes] at distinct ⊢
      exact (congrArg (fun pairs => (pairs.map Prod.fst).Nodup) held).mpr distinct
    · rw [held]
      refine ⟨.inl, ?_⟩
      rintro (held | ⟨⟨⟩⟩)
      · exact held
      · exact mem_map.mpr ⟨existing, stored, (replaced _ stored scope).1⟩
  · cases done

def Database.ran (database : Database) (now : Int) (number : Nat) (execution : Execution) : Database :=
  { database with
    inbox := database.inbox ++ [⟨number, execution.scope, execution.bindingId, now⟩]
    results := database.results ++ [execution.scope]
    outbox := fun channel => database.outbox channel ++ execution.rows now channel }

theorem execute_ok (distinct : (db.admissions.map (·.scope)).Nodup)
    (done : db.execute now num execution = .ok (database', ran)) :
    ∃ admitted, Admits db (execution.admission.map Admission.pair) admitted ∧
      (ran = false ∧ execution.scope ∈ admitted.results ∧ database' = admitted ∨
        ran = true ∧ (∀ inbox ∈ admitted.inbox, inbox.scope ≠ execution.scope) ∧
          database' = admitted.ran now num execution) := by
  unfold Database.execute at done
  obtain ⟨admitted, admits, done⟩ : ∃ admitted, Admits db (execution.admission.map Admission.pair) admitted ∧
      (if execution.scope ∈ admitted.results then pure (admitted, false)
      else if admitted.inbox.any (·.scope = execution.scope) then
        .error "duplicate key value violates unique constraint \"applik8s_command_inbox_pkey\""
      else if [Channel.events, .commands].any fun channel =>
          ¬ ((execution.rows now channel).map OutboxRow.id ++ (admitted.outbox channel).map OutboxRow.id).Nodup then
        .error "duplicate key value violates unique constraint"
      else pure (admitted.ran now num execution, true)) = (.ok (database', ran) : Except String _) := by
    cases receipt : execution.admission with
    | none =>
      rw [receipt] at done
      exact ⟨db, ⟨rfl, distinct, fun pair => by simp⟩, done⟩
    | some admission =>
      rw [receipt] at done
      dsimp only at done
      cases persisted : db.persistAdmission now admission _ with
      | error =>
        rw [persisted] at done
        cases done
      | ok admitted =>
        rw [persisted] at done
        exact ⟨admitted, persistAdmission_ok distinct persisted, done⟩
  refine ⟨admitted, admits, ?_⟩
  split at done
  · next stored =>
    cases Except.ok.inj done
    exact .inl ⟨rfl, stored, rfl⟩
  split at done
  · cases done
  · next absent =>
    split at done
    · cases done
    cases Except.ok.inj done
    refine .inr ⟨rfl, fun inbox among same => absent ?_, rfl⟩
    exact any_eq_true.mpr ⟨inbox, among, by simpa using same⟩

end

section
variable (parse : Parse) (world : World)

structure World.Sound : Prop extends world.Kept parse where
  marked : ∀ channel, ∀ row ∈ world.database.outbox channel, row.publishedAt ≠ none → world.Sent parse channel row
  admissions : (world.database.admissions.map (·.scope)).Nodup
  inbox : (world.database.inbox.map InboxRow.scope).Nodup
  drawn : ∀ inbox ∈ world.database.inbox, inbox.number < world.drawn
  entered : ∀ inbox ∈ world.database.inbox, inbox.scope ∈ world.executed
  resulted : ∀ scope ∈ world.database.results, scope ∈ world.executed
  recorded : ∀ pair ∈ world.database.held, pair ∈ world.admitted
  unshared : ∀ first ∈ world.admitted, ∀ second ∈ world.admitted, first.2 = second.2 → first.1 = second.1

/-- The command has its result, and all that it put into the outboxes was published before the cutoff. -/
def World.Closed (cutoff : Int) (scope : String) : Prop :=
  scope ∈ world.database.results ∧
    ∀ channel, ∀ row ∈ world.database.outbox channel, row.scope = scope → row.publishedBefore cutoff

/-- The reference was that of a command that is executed. -/
def World.Freed (reference : Reference) : Prop :=
  ∃ scope, (scope, reference) ∈ world.admitted ∧ scope ∈ world.executed

structure World.Deletes (own : Deletions) : Prop where
  outbox : ∀ channel, ∀ row ∈ own.outbox channel, row.publishedBefore own.cutoff ∧ world.Sent parse channel row
  inbox : ∀ inbox ∈ own.inbox, inbox.number < world.drawn ∧
    (inbox ∈ world.database.inbox → world.Closed own.cutoff inbox.scope)
  admissions : ∀ row ∈ own.admissions, row.scope ∈ world.executed ∧ row.pair ∈ world.admitted
  references : ∀ reference ∈ own.references, world.Freed reference

def Agrees : Operation → Phase → Prop
  | _, .idle => True
  | _, .sent channel envelope => (channel, envelope) ∈ world.published
  | _, .reserved reference => reference ∈ world.database.references ∨ world.Freed reference
  | operation, .cleaning own => (∃ options clock, operation = .cleanup options clock ∧
      own.cutoff = options.publishedCutoff clock) ∧ world.Deletes parse own

structure World.Follows (world world' : World) : Prop where
  published : ∀ message ∈ world.published, message ∈ world'.published
  executed : ∀ scope ∈ world.executed, scope ∈ world'.executed
  admitted : ∀ pair ∈ world.admitted, pair ∈ world'.admitted
  drawn : world.drawn ≤ world'.drawn
  inbox : ∀ inbox ∈ world'.database.inbox, inbox.number < world.drawn → inbox ∈ world.database.inbox ∧
    ∀ cutoff, world.Closed cutoff inbox.scope → world'.Closed cutoff inbox.scope
  references : ∀ reference ∈ world.database.references, reference ∈ world'.database.references ∨ world'.Freed reference

variable {parse world}

theorem World.Follows.refl (world : World) : world.Follows world where
  published _ := id
  executed _ := id
  admitted _ := id
  drawn := le_rfl
  inbox _ among _ := ⟨among, fun _ => id⟩
  references _ := .inl

theorem World.Follows.trans {world'' : World} (first : world.Follows world')
    (second : world'.Follows world'') : world.Follows world'' where
  published msg := second.published msg ∘ first.published msg
  executed scope := second.executed scope ∘ first.executed scope
  admitted pair := second.admitted pair ∘ first.admitted pair
  drawn := first.drawn.trans second.drawn
  inbox inbox among older :=
    let ⟨between, stays'⟩ := second.inbox inbox among (lt_of_lt_of_le older first.drawn)
    let ⟨before, stays⟩ := first.inbox inbox between older
    ⟨before, fun cutoff closed => stays' cutoff (stays cutoff closed)⟩
  references ref here := by
    rcases first.references ref here with between | ⟨scope, admitted, executed⟩
    · exact second.references ref between
    · exact .inr ⟨scope, second.admitted _ admitted, second.executed _ executed⟩

theorem World.Follows.sent (follows : world.Follows world') (sent : world.Sent parse channel row) :
    world'.Sent parse channel row :=
  let ⟨value, id, readable, reached⟩ := sent
  ⟨value, id, readable, follows.published _ reached⟩

theorem World.Follows.freed (follows : world.Follows world') (freed : world.Freed ref) : world'.Freed ref :=
  let ⟨scope, admitted, executed⟩ := freed
  ⟨scope, follows.admitted _ admitted, follows.executed _ executed⟩

theorem World.Deletes.follows {own : Deletions} (deletes : world.Deletes parse own) (follows : world.Follows world') :
    world'.Deletes parse own where
  outbox channel row deleted := (deletes.outbox channel row deleted).imp_right follows.sent
  inbox inbox deleted :=
    let ⟨drawn, closed⟩ := deletes.inbox inbox deleted
    ⟨lt_of_lt_of_le drawn follows.drawn, fun among =>
      let ⟨before, stays⟩ := follows.inbox inbox among drawn
      stays _ (closed before)⟩
  admissions row deleted := (deletes.admissions row deleted).imp (follows.executed _) (follows.admitted _)
  references ref deleted := follows.freed (deletes.references ref deleted)

theorem Agrees.follows (agrees : Agrees parse world op phase) (follows : world.Follows world') :
    Agrees parse world' op phase := by
  cases phase with
  | idle => trivial
  | sent => exact follows.published _ agrees
  | reserved ref => exact agrees.elim (follows.references ref) (.inr ∘ follows.freed)
  | cleaning own => exact agrees.imp_right (·.follows follows)

theorem World.Sent.same (sent : world.Sent parse channel row) (id : other.id = row.id)
    (envelope : other.envelope = row.envelope) : world.Sent parse channel other := by
  obtain ⟨other, _, _, _, _⟩ := other
  subst id envelope
  exact sent

end

section
variable {execution : Execution}

theorem World.Sound.publish (sound : world.Sound parse) (msg : Channel × Json) :
    World.Sound parse { world with published := world.published ++ [msg] } ∧
      world.Follows { world with published := world.published ++ [msg] } := by
  have follows : world.Follows { world with published := world.published ++ [msg] } :=
    { World.Follows.refl world with published := fun _ => mem_append_left _ }
  exact ⟨{ sound with
    owed := fun channel row owed => (sound.owed channel row owed).imp_right follows.sent
    marked := fun channel row among marked => follows.sent (sound.marked channel row among marked) },
    follows⟩

def OutboxRow.mark (id : String) (now : Int) (row : OutboxRow) : OutboxRow :=
  if row.id = id ∧ row.publishedAt = none then { row with publishedAt := some now } else row

theorem mark_same (id : String) (now : Int) (row : OutboxRow) :
    (row.mark id now).id = row.id ∧ (row.mark id now).scope = row.scope ∧
      (row.mark id now).envelope = row.envelope := by
  unfold OutboxRow.mark
  split <;> exact ⟨rfl, rfl, rfl⟩

theorem mark_publishedBefore (id : String) (now : Int) (before : row.publishedBefore cutoff)
    : (row.mark id now).publishedBefore cutoff := by
  unfold OutboxRow.mark
  split
  · next marks =>
    rw [OutboxRow.publishedBefore, marks.2] at before
    cases before
  · exact before

theorem outbox_markPublished (id : String) (channel other : Channel) :
    (world.markPublished choice id channel).database.outbox other =
      if other = channel then (world.database.outbox other).map (OutboxRow.mark id choice.now)
      else world.database.outbox other := by
  by_cases same : other = channel
  · subst same
    rw [if_pos rfl]
    exact Function.update_self ..
  · rw [if_neg same]
    exact Function.update_of_ne same ..

theorem mem_markPublished {id : String} (among : row ∈ (world.markPublished choice id channel).database.outbox other) :
    row ∈ world.database.outbox other ∨ other = channel ∧
      ∃ stored ∈ world.database.outbox channel, row = stored.mark id choice.now := by
  rw [outbox_markPublished] at among
  split at among
  · next same =>
    subst same
    obtain ⟨stored, here, rfl⟩ := mem_map.mp among
    exact .inr ⟨rfl, stored, here, rfl⟩
  · exact .inl among

theorem stored_markPublished {id : String} (here : stored ∈ world.database.outbox other) :
    ∃ row ∈ (world.markPublished choice id channel).database.outbox other,
      row.id = stored.id ∧ row.scope = stored.scope ∧ row.envelope = stored.envelope := by
  rw [outbox_markPublished]
  split
  · exact ⟨_, mem_map_of_mem here, mark_same id choice.now stored⟩
  · exact ⟨stored, here, rfl, rfl, rfl⟩

namespace World

theorem Sound.markPublished {id : String} (sound : world.Sound parse)
    (agrees : (channel, envelope) ∈ world.published) (readable : eventOutboxEnvelope parse row = .ok (envelope, id))
    (careful : world.Careful (.markPublished channel row)) : (world.markPublished choice row.id channel).Sound parse ∧
      world.Follows (world.markPublished choice row.id channel) := by
  have sent : world.Sent parse channel row := ⟨envelope, id, readable, agrees⟩
  constructor
  · refine { sound with owed := fun other owed among => ?_, marked := fun other marked among stands => ?_ }
    · rcases sound.owed other owed among with ⟨stored, here, id, scope, envelope⟩ | sent
      · obtain ⟨row, there, id', scope', envelope'⟩ := stored_markPublished here
        exact .inl ⟨row, there, id'.trans id, scope'.trans scope, envelope'.trans envelope⟩
      · exact .inr sent
    · rcases mem_markPublished among with here | ⟨rfl, stored, here, rfl⟩
      · exact sound.marked other marked here stands
      · unfold OutboxRow.mark at stands ⊢
        split
        · next marks => exact sent.same marks.1 (careful stored here marks.1 marks.2)
        next not =>
        rw [if_neg not] at stands
        exact sound.marked other stored here stands
  · refine { Follows.refl world with inbox := fun inbox among _ => ⟨among, fun cutoff closed => ?_⟩ }
    refine ⟨closed.1, fun other marked here same => ?_⟩
    rcases mem_markPublished here with before | ⟨rfl, stored, before, rfl⟩
    · exact closed.2 other marked before same
    · exact mark_publishedBefore row.id choice.now
        (closed.2 other stored before ((mark_same row.id choice.now stored).2.1.symm.trans same))

/-- An admission is persisted under a reference that is there, or for a command that is executed. -/
theorem Sound.persist (sound : world.Sound parse) (admits : Admits world.database pairs db)
    (unshared : ∀ pair ∈ pairs, world.Unshared pair)
    (stands : ∀ pair ∈ pairs, pair.2 ∈ world.database.references ∨ pair.1 ∈ world.executed) :
    Sound parse { world with database := db, admitted := world.admitted ++ pairs.toList } ∧
      world.Follows { world with database := db, admitted := world.admitted ++ pairs.toList } := by
  obtain ⟨rest, distinct, held⟩ := admits
  rw [rest] at distinct held ⊢
  constructor
  · refine { sound with
      stands := fun scope ref among queued => ?_
      admissions := distinct
      recorded := fun other here => ?_
      unshared := ?_ }
    · rcases mem_append.mp among with before | new
      · exact (sound.stands scope ref before queued).imp_left fun here => (held _).mpr (.inl here)
      · have new := mem_toList.mp new
        exact ⟨(held _).mpr (.inr new), (stands _ new).resolve_right queued⟩
    · rcases (held other).mp here with before | new
      · exact mem_append_left _ (sound.recorded other before)
      · exact mem_append_right _ (mem_toList.mpr new)
    · rintro first among second also same
      rcases mem_append.mp among with before | new <;>
        rcases mem_append.mp also with before' | new'
      · exact sound.unshared first before second before' same
      · exact unshared second (mem_toList.mp new') first before same
      · exact (unshared first (mem_toList.mp new) second before' same.symm).symm
      · rw [mem_unique (mem_toList.mp new) (mem_toList.mp new')]
  · exact { Follows.refl world with
      admitted := fun _ => mem_append_left _
      references := fun _ => .inl }

def ran (world : World) (now : Int) (execution : Execution) : World :=
  { world with
    database := world.database.ran now world.drawn execution
    drawn := world.drawn + 1
    executed := world.executed ++ [execution.scope]
    owed := fun channel => world.owed channel ++ execution.rows now channel }

theorem Sound.run (sound : world.Sound parse) (now : Int)
    (absent : ∀ inbox ∈ world.database.inbox, inbox.scope ≠ execution.scope) :
    (world.ran now execution).Sound parse ∧ world.Follows (world.ran now execution) := by
  constructor
  · constructor
    · constructor
      · intro channel row among
        rcases mem_append.mp among with among | new
        · refine (sound.owed channel row among).imp_left ?_
          rintro ⟨stored, here, same⟩
          exact ⟨stored, mem_append_left _ here, same⟩
        · exact .inl ⟨row, mem_append_right _ new, rfl, rfl, rfl⟩
      · intro scope ref among queued
        exact sound.stands scope ref among fun executed => queued (mem_append_left _ executed)
    · intro channel row among marked
      rcases mem_append.mp among with among | new
      · exact sound.marked channel row among marked
      · obtain ⟨emitted, -, rfl⟩ := mem_map.mp new
        exact absurd rfl marked
    · exact sound.admissions
    · change ((world.database.inbox ++ [_]).map InboxRow.scope).Nodup
      rw [map_append, nodup_append]
      refine ⟨sound.inbox, by simp, ?_⟩
      rintro scope among _ last rfl
      obtain ⟨inbox, here, rfl⟩ := mem_map.mp among
      exact absent inbox here (by simpa using last)
    · intro inbox among
      rcases mem_append.mp among with among | last
      · exact lt_succ_of_lt (sound.drawn inbox among)
      · obtain rfl := mem_singleton.mp last
        exact lt_succ_self _
    · intro inbox among
      rcases mem_append.mp among with among | last
      · exact mem_append_left _ (sound.entered inbox among)
      · obtain rfl := mem_singleton.mp last
        exact mem_append_right _ mem_cons_self
    · intro scope among
      rcases mem_append.mp among with among | last
      · exact mem_append_left _ (sound.resulted scope among)
      · exact mem_append_right _ last
    · exact sound.recorded
    · exact sound.unshared
  · refine { Follows.refl world with
      executed := fun _ => mem_append_left _
      drawn := le_succ _
      inbox := fun inbox among older => ?_
      references := fun _ => .inl }
    rcases mem_append.mp among with among | last
    · refine ⟨among, fun cutoff closed => ⟨mem_append_left _ closed.1, fun channel row here same => ?_⟩⟩
      rcases mem_append.mp here with here | new
      · exact closed.2 channel row here same
      · obtain ⟨_, -, rfl⟩ := mem_map.mp new
        exact absurd same.symm (absent inbox among)
    · obtain rfl := mem_singleton.mp last
      exact absurd older (lt_irrefl _)

theorem Sound.execute (sound : world.Sound parse) (choice : Choice) (careful : world.Careful (.execute execution)) :
    (world.execute choice execution).2.Sound parse ∧ world.Follows (world.execute choice execution).2 := by
  unfold World.execute
  cases done : world.database.execute choice.now world.drawn execution with
  | error => exact ⟨sound, .refl world⟩
  | ok res =>
    obtain ⟨db, ran⟩ := res
    obtain ⟨admitted, admits, ends⟩ := execute_ok sound.admissions done
    have unshared : ∀ pair ∈ execution.admission.map Admission.pair,
        pair.1 = execution.scope ∧ world.Unshared pair := by
      intro pair among
      obtain ⟨admission, some_, rfl⟩ := map_eq_some_iff.mp among
      refine ⟨?_, careful admission some_⟩
      obtain ⟨_, -, rfl⟩ := map_eq_some_iff.mp some_
      rfl
    obtain ⟨rest, distinct, held⟩ := admits
    rcases ends with ⟨rfl, stored, rfl⟩ | ⟨rfl, absent, rfl⟩
    · rw [rest] at stored
      refine sound.persist ⟨rest, distinct, held⟩ (fun pair among => (unshared pair among).2) ?_
      exact fun pair among => .inr ((unshared pair among).1 ▸ sound.resulted _ stored)
    rw [rest] at absent
    obtain ⟨sound', follows⟩ := sound.run choice.now absent
    have admits : Admits (world.ran choice.now execution).database
        (execution.admission.map Admission.pair) (admitted.ran choice.now world.drawn execution) :=
      ⟨by rw [rest]; rfl, distinct, held⟩
    obtain ⟨sound'', follows'⟩ := sound'.persist admits (fun pair among => (unshared pair among).2)
      (fun pair among => .inr ((unshared pair among).1 ▸ mem_append_right _ mem_cons_self))
    exact ⟨sound'', follows.trans follows'⟩

end World
end
end Applik8s.Outbox
