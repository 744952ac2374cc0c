import Applik8s.AI.Steps

/-! What the PostgreSQL store has for an invocation after it has persisted what an operation wrote:
the state that was loaded, with the change applied; and every other invocation is loaded as before. -/
namespace Applik8s.AI
open Function (update update_of_ne update_self)
open Lib List Option
open AttemptStoreState (apply mk withAttempt withInvocation)
open Record (get_set get_set_self select select_set set_absent)

section
structure Filed (database : Database) : Prop where
  keys : (database.attempts.map Prod.fst).Nodup
  rows : ∀ entry ∈ database.attempts, entry.2.record.invocationId = entry.2.invocationId ∧
    entry.2.record.ordinal = entry.2.ordinal
  ordered : ∀ invocationId, (database.attempts.filter (·.2.invocationId = invocationId)).Pairwise
    (·.2.ordinal ≤ ·.2.ordinal)
  deltas : ∀ delta ∈ database.deltas, (database.attempts.get delta.attemptId).isSome
  sequenced : ∀ attemptId, (database.deltas.filter (·.attemptId = attemptId)).Pairwise (·.sequence ≤ ·.sequence)
  proposals : ∀ key, (database.proposals key).isSome → (database.attempts.get key.1).isSome

def Database.empty : Database := ⟨fun _ => none, [], [], fun _ => none⟩

theorem filed_empty : Filed .empty where
  keys := nodup_nil
  rows _ member := by cases member
  ordered _ := .nil
  deltas _ member := by cases member
  sequenced _ := .nil
  proposals _ held := by cases held

variable {db : Database} {invocationId : String}

section
variable (filed : Filed db)
include filed

theorem Filed.attemptsOf (invId : String) : db.attemptsOf invId =
      db.attempts.select (·.invocationId = invId) AttemptRow.record := by
  unfold Database.attemptsOf
  rw [(filed.ordered invId).insertionSort_eq]
  rfl

theorem Filed.deltasOf (attId : String) : db.deltasOf attId = db.deltas.filter (·.attemptId = attId) :=
  (filed.sequenced attId).insertionSort_eq

theorem Filed.get_attemptsOf (invId attId : String) : (db.attemptsOf invId).get attId =
      ((db.attempts.get attId).filter (·.invocationId = invId)).map AttemptRow.record := by
  rw [filed.attemptsOf, Record.get_select filed.keys]

theorem Filed.row (found : (db.attemptsOf invId).get attId = some attempt) :
    ∃ row, db.attempts.get attId = some row ∧ row.invocationId = invId ∧ row.record = attempt := by
  rw [filed.get_attemptsOf, map_eq_some_iff] at found
  obtain ⟨row, found, rfl⟩ := found
  obtain ⟨there, own⟩ := filter_eq_some_iff.mp found
  exact ⟨row, there, of_decide_eq_true own, rfl⟩

theorem Filed.no_deltas (absent : db.attempts.get attId = none) : db.deltasOf attId = [] := by
  rw [filed.deltasOf, filter_eq_nil_iff]
  intro delta member same
  have held := filed.deltas delta member
  rw [of_decide_eq_true same, absent] at held
  cases held

theorem Filed.no_proposals (absent : db.attempts.get key.1 = none) : db.proposals key = none := by
  rw [← not_isSome_iff_eq_none]
  intro held
  rw [← not_isSome_iff_eq_none] at absent
  exact absent (filed.proposals key held)

end

structure Moved (invocationId : String) (before after : Database) (state : AttemptStoreState) :
    Prop where
  filed : Filed after
  here : after.load invocationId = state
  others : ∀ other, other ≠ invocationId → after.load other = before.load other

theorem Moved.trans {first second third : Database} {between state : AttemptStoreState}
    (earlier : Moved invId first second between)
    (later : Moved invId second third state) : Moved invId first third state where
  filed := later.filed
  here := later.here
  others other differ := (later.others other differ).trans (earlier.others other differ)

theorem moved_refl (filed : Filed db) : Moved invId db db (db.load invId) := ⟨filed, rfl, fun _ _ => rfl⟩

end

open Database (load persist putAttempt)

section
variable {db : Database}

def Database.withInvocation (database : Database) (record : InvocationRecord) : Database :=
  { database with invocations := update database.invocations record.id (some record) }

theorem withInvocation_self (record : InvocationRecord) :
    (db.withInvocation record).invocations record.id = some record := update_self ..

theorem moved_invocation {invId : String} (filed : Filed db) {record : InvocationRecord} (own : record.id = invId) :
    Moved invId db (db.withInvocation record) ((db.load invId).withInvocation record) where
  filed := ⟨filed.keys, filed.rows, filed.ordered, filed.deltas, filed.sequenced, filed.proposals⟩
  here := by
    subst own
    have same : update db.invocations record.id (some record) record.id =
        some record := update_self ..
    simp only [load, Database.withInvocation, withInvocation, same]
    rfl
  others other differ := by
    subst own
    have same : update db.invocations record.id (some record) other =
        db.invocations other := update_of_ne differ ..
    simp only [load, Database.withInvocation, same]
    rfl

def Database.withAttempts (database : Database) (attempts : Record AttemptRow) : Database :=
  { database with attempts }

theorem load_withAttempts (same : (db.withAttempts attempts).attemptsOf invId = db.attemptsOf invId) :
    (db.withAttempts attempts).load invId = db.load invId := by
  unfold load
  rw [same]
  rfl

theorem load_written
    (written : (db.withAttempts attempts).attemptsOf invId = (db.attemptsOf invId).set attempt.id attempt)
    (noDeltas : (db.attemptsOf invId).get attempt.id = none → db.deltasOf attempt.id = [])
    (noProposals : (db.attemptsOf invId).get attempt.id = none → ∀ tool, db.proposals (attempt.id, tool) = none)
    : (db.withAttempts attempts).load invId =
      (db.load invId).withAttempt attempt := by
  have deltas : ∀ attId, (if (((db.attemptsOf invId).set attempt.id attempt).get attId).isSome
        then db.deltasOf attId else []) =
      if ((db.attemptsOf invId).get attId).isSome
        then db.deltasOf attId else [] := by
    intro attId
    rw [get_set]
    by_cases same : attId = attempt.id
    · subst same
      cases absent : (db.attemptsOf invId).get attempt.id with
      | none => simp [noDeltas absent]
      | some _ => simp
    · rw [if_neg same]
  have proposals : ∀ key : String × String, (if (((db.attemptsOf invId).set attempt.id attempt).get key.1).isSome
        then db.proposals key else none) =
      if ((db.attemptsOf invId).get key.1).isSome
        then db.proposals key else none := by
    rintro ⟨attId, _⟩
    rw [get_set]
    by_cases same : attId = attempt.id
    · subst same
      cases absent : (db.attemptsOf invId).get attempt.id with
      | none => simp [noProposals absent]
      | some _ => simp
    · rw [if_neg same]
  unfold load withAttempt
  rw [written]
  exact congrArg₂ (mk _ _) (funext deltas) (funext proposals)

theorem moved_revised (filed : Filed db) (found : (db.load invId).attempts.get attempt.id = some attempt)
    (revises : Revises attempt updated) : ∃ after, db.putAttempt updated = .ok after ∧
      Moved invId db after ((db.load invId).withAttempt updated) := by
  obtain ⟨row, there, own, rfl⟩ := filed.row found
  rw [← revises.id] at there
  have present : (db.attempts.get updated.id).isSome := by rw [there]; rfl
  let written : AttemptRow := { row with record := updated }
  let after := db.withAttempts (db.attempts.set updated.id written)
  have isSome : ∀ attId, (after.attempts.get attId).isSome = (db.attempts.get attId).isSome := by
    intro attId
    refine (congrArg isSome (get_set _)).trans ?_
    split
    · next same => rw [same, there]; rfl
    · rfl
  have rows : after.attempts = db.attempts.map fun entry =>
      if entry.1 = updated.id then (updated.id, written) else entry :=
    Record.set_present filed.keys present
  have unmoved : ∀ entry ∈ db.attempts,
      (if entry.1 = updated.id then (updated.id, written) else entry).2.invocationId = entry.2.invocationId ∧
      (if entry.1 = updated.id then (updated.id, written) else entry).2.ordinal = entry.2.ordinal := by
    intro entry among
    split
    · next same =>
      have here : db.attempts.get entry.1 = some entry.2 := Record.get_of_mem filed.keys among
      rw [same, there] at here
      cases here
      exact ⟨rfl, rfl⟩
    · exact ⟨rfl, rfl⟩
  have filed' : Filed after := by
    refine ⟨?_, ?_, ?_, ?_, filed.sequenced, ?_⟩
    · exact (Record.keys_set_present filed.keys present).symm ▸ filed.keys
    · rw [rows]
      intro entry among
      obtain ⟨earlier, within, rfl⟩ := mem_map.mp among
      split
      · have kept := filed.rows _ (Record.mem_of_get there)
        exact ⟨revises.invocationId.trans kept.1, revises.ordinal.trans kept.2⟩
      · exact filed.rows earlier within
    · intro other
      rw [rows, List.filter_map, List.pairwise_map]
      have kept : db.attempts.filter ((fun entry => decide (entry.2.invocationId = other)) ∘
          fun entry => if entry.1 = updated.id then (updated.id, written) else entry) =
          db.attempts.filter (·.2.invocationId = other) :=
        filter_congr fun entry among => by
          simp only [Function.comp]
          rw [(unmoved entry among).1]
      rw [kept]
      refine (filed.ordered other).imp_of_mem fun {left right} before later ascends => ?_
      rw [(unmoved left (mem_filter.mp before).1).2, (unmoved right (mem_filter.mp later).1).2]
      exact ascends
    · intro delta among
      exact (isSome _).symm ▸ filed.deltas delta among
    · intro key held
      exact (isSome _).symm ▸ filed.proposals key held
  refine ⟨after, by simp [Database.putAttempt, there]; rfl, filed', ?_, ?_⟩
  · have attempts : after.attemptsOf invId = (db.attemptsOf invId).set updated.id updated := by
      rw [filed'.attemptsOf, filed.attemptsOf]
      exact Eq.trans (select_set filed.keys there rfl) (if_pos (decide_eq_true own))
    have held : (db.attemptsOf invId).get updated.id = some row.record :=
      revises.id ▸ found
    refine load_written attempts (fun absent => ?_) fun absent => ?_
    · cases held.symm.trans absent
    · cases held.symm.trans absent
  · intro other differ
    refine load_withAttempts ?_
    rw [filed'.attemptsOf other, filed.attemptsOf]
    refine Eq.trans (select_set filed.keys there rfl) (if_neg fun same => differ ?_)
    exact (of_decide_eq_true same).symm.trans own

theorem moved_attempted (filed : Filed db) (own : attempt.invocationId = invId)
    (fresh : db.attempts.get attempt.id = none) (invoked : (db.invocations invId).isSome)
    (last : ∀ entry ∈ (db.load invId).attempts, entry.2.ordinal < attempt.ordinal) :
    ∃ after, db.putAttempt attempt = .ok after ∧
      Moved invId db after ((db.load invId).withAttempt attempt) := by
  subst own
  let after := db.withAttempts
    (db.attempts.set attempt.id ⟨attempt.invocationId, attempt.ordinal, attempt⟩)
  have rows : after.attempts = db.attempts ++ [(attempt.id, ⟨attempt.invocationId, attempt.ordinal, attempt⟩)] :=
    set_absent fresh
  have below : ∀ entry ∈ db.attempts, entry.2.invocationId = attempt.invocationId →
      entry.2.ordinal < attempt.ordinal := by
    intro entry among own
    have loaded : (entry.1, entry.2.record) ∈ db.attemptsOf attempt.invocationId := by
      rw [filed.attemptsOf]
      exact mem_map.mpr ⟨entry, mem_filter.mpr ⟨among, decide_eq_true own⟩, rfl⟩
    exact (filed.rows entry among).2 ▸ last _ loaded
  have untaken : (db.attempts.any fun row =>
      row.2.invocationId = attempt.invocationId && row.2.ordinal = attempt.ordinal) = false := by
    rw [List.any_eq_false]
    intro entry among taken
    simp only [Bool.and_eq_true, decide_eq_true_eq] at taken
    have := below entry among taken.1
    omega
  have isSome : ∀ attId, (db.attempts.get attId).isSome → (after.attempts.get attId).isSome := by
    intro attId held
    refine (congrArg isSome (get_set _)).trans ?_
    split
    · rfl
    · exact held
  have filed' : Filed after := by
    refine ⟨Record.keys_set_absent filed.keys fresh, ?_, ?_, ?_, filed.sequenced, ?_⟩
    · rw [rows]
      intro entry among
      rcases mem_append.mp among with there | here
      · exact filed.rows entry there
      · obtain rfl := mem_singleton.mp here
        exact ⟨rfl, rfl⟩
    · intro other
      rw [rows, filter_append, pairwise_append]
      refine ⟨filed.ordered other, List.Pairwise.sublist filter_sublist (by simp), ?_⟩
      intro earlier before later here
      obtain ⟨among, own⟩ := mem_filter.mp before
      obtain ⟨here, owns⟩ := mem_filter.mp here
      obtain rfl := mem_singleton.mp here
      have same := (of_decide_eq_true own).trans (of_decide_eq_true owns).symm
      exact (below earlier among same).le
    · intro delta among
      exact isSome _ (filed.deltas delta among)
    · intro key held
      exact isSome _ (filed.proposals key held)
  refine ⟨after, ?_, filed', ?_, ?_⟩
  · have invoked : (db.invocations attempt.invocationId).isNone = false := by
      rw [isNone_eq_false_iff]
      exact invoked
    simp only [Database.putAttempt, fresh, invoked, untaken]
    rfl
  · have attempts : after.attemptsOf attempt.invocationId =
        (db.attemptsOf attempt.invocationId).set attempt.id attempt := by
      have absent : (db.attemptsOf attempt.invocationId).get attempt.id = none := by
        rw [filed.get_attemptsOf, fresh]
        rfl
      rw [filed'.attemptsOf, filed.attemptsOf, rows, Record.select_append,
        set_absent (by rw [← filed.attemptsOf]; exact absent)]
      simp [select]
    have noProposals : ∀ tool, db.proposals (attempt.id, tool) = none :=
      fun _ => filed.no_proposals fresh
    exact load_written attempts (fun _ => filed.no_deltas fresh) fun _ => noProposals
  · intro other differ
    refine load_withAttempts ?_
    rw [filed'.attemptsOf other, filed.attemptsOf, rows, Record.select_append]
    simp [select, Ne.symm differ]

theorem moved_delta (filed : Filed db) (attempted : ((db.load invId).attempts.get delta.attemptId).isSome)
    (last : ∀ earlier ∈ (db.load invId).deltas delta.attemptId, earlier.sequence < delta.sequence) :
    ∃ after, db.putDelta delta = .ok after ∧
      Moved invId db after ((db.load invId).withDelta delta) := by
  obtain ⟨_, found⟩ := isSome_iff_exists.mp attempted
  obtain ⟨row, there, own, -⟩ := filed.row found
  let after : Database := { db with deltas := db.deltas ++ [delta] }
  have listed : (db.load invId).deltas delta.attemptId =
      db.deltas.filter (·.attemptId = delta.attemptId) := by
    rw [← filed.deltasOf]
    exact if_pos attempted
  rw [listed] at last
  have untaken : (db.deltas.any fun row =>
      row.attemptId = delta.attemptId && row.sequence = delta.sequence) = false := by
    rw [List.any_eq_false]
    intro row among taken
    simp only [Bool.and_eq_true, decide_eq_true_eq] at taken
    have := last row (mem_filter.mpr ⟨among, decide_eq_true taken.1⟩)
    omega
  have filed' : Filed after := by
    refine ⟨filed.keys, filed.rows, filed.ordered, ?_, ?_, filed.proposals⟩
    · intro other among
      rcases mem_append.mp among with held | here
      · exact filed.deltas other held
      obtain rfl := mem_singleton.mp here
      rw [there]
      rfl
    intro attId
    rw [filter_append, pairwise_append]
    refine ⟨filed.sequenced attId, List.Pairwise.sublist filter_sublist (by simp), ?_⟩
    intro earlier before later here
    obtain ⟨here, same⟩ := mem_filter.mp here
    obtain rfl := mem_singleton.mp here
    rw [← of_decide_eq_true same] at before
    exact (last earlier before).le
  have appended : ∀ attId, after.deltasOf attId = update db.deltasOf delta.attemptId
        (db.deltasOf delta.attemptId ++ [delta]) attId := by
    intro attId
    rw [filed'.deltasOf]
    by_cases same : attId = delta.attemptId
    · subst same
      rw [update_self, filed.deltasOf]
      simp [after]
    · rw [update_of_ne same, filed.deltasOf]
      simp [after, Ne.symm same]
  have loads : ∀ other, after.load other = { db.load other with
      deltas := fun attId => if ((db.attemptsOf other).get attId).isSome
        then after.deltasOf attId else [] } := fun _ => rfl
  refine ⟨after, by simp [Database.putDelta, there, untaken, after], filed', ?_, ?_⟩
  · rw [loads]
    refine congrArg (fun deltas => { db.load invId with deltas }) (funext fun attId => ?_)
    rw [appended]
    by_cases same : attId = delta.attemptId
    · subst same
      rw [update_self, update_self, listed, ← filed.deltasOf]
      exact if_pos attempted
    · rw [update_of_ne same, update_of_ne same]
      rfl
  intro other differ
  rw [loads]
  refine congrArg (fun deltas => { db.load other with deltas }) (funext fun attId => ?_)
  rw [appended]
  by_cases same : attId = delta.attemptId
  · have absent : (db.attemptsOf other).get delta.attemptId = none := by
      rw [filed.get_attemptsOf, there]
      have out : decide (row.invocationId = other) = false :=
        decide_eq_false fun is => differ (is.symm.trans own)
      simp [Option.filter, out]
    subst same
    simp [absent]
  · rw [update_of_ne same]

theorem moved_proposal (filed : Filed db) (attempted : ((db.load invId).attempts.get proposal.attemptId).isSome) :
    ∃ after, db.putProposal proposal = .ok after ∧
      Moved invId db after ((db.load invId).withProposal proposal) := by
  obtain ⟨_, found⟩ := isSome_iff_exists.mp attempted
  obtain ⟨row, there, own, -⟩ := filed.row found
  let after : Database := { db with
    proposals := update db.proposals (proposal.attemptId, proposal.providerToolCallId) (some proposal) }
  have loads : ∀ other, after.load other = { db.load other with
      proposals := fun key => if ((db.attemptsOf other).get key.1).isSome
        then after.proposals key else none } := fun _ => rfl
  refine ⟨after, by simp [Database.putProposal, there, after], ?_, ?_, ?_⟩
  · refine ⟨filed.keys, filed.rows, filed.ordered, filed.deltas, filed.sequenced, ?_⟩
    intro key held
    by_cases same : key = (proposal.attemptId, proposal.providerToolCallId)
    · subst same
      rw [there]
      rfl
    · exact filed.proposals key ((congrArg isSome (update_of_ne same ..)).symm.trans held)
  · rw [loads]
    refine congrArg (fun proposals => { db.load invId with proposals }) (funext fun key => ?_)
    by_cases same : key = (proposal.attemptId, proposal.providerToolCallId)
    · subst same
      rw [update_self]
      exact (if_pos attempted).trans (update_self ..)
    · have kept : after.proposals key = db.proposals key := update_of_ne same ..
      rw [update_of_ne same, kept]
      rfl
  · intro other differ
    rw [loads]
    refine congrArg (fun proposals => { db.load other with proposals }) (funext fun key => ?_)
    by_cases same : key = (proposal.attemptId, proposal.providerToolCallId)
    · have absent : (db.attemptsOf other).get proposal.attemptId = none := by
        rw [filed.get_attemptsOf, there]
        have out : decide (row.invocationId = other) = false :=
          decide_eq_false fun is => differ (is.symm.trans own)
        simp [Option.filter, out]
      subst same
      simp [absent]
    · have kept : after.proposals key = db.proposals key := update_of_ne same ..
      rw [kept]

end

section
variable {drawn : Drawn} {db : Database} {state : AttemptStoreState} (record : InvocationRecord)

theorem persist_invocation : db.persist (.of state { invocation := some record }) =
      .ok (db.withInvocation record) := rfl

variable (attempt : AttemptRecord)

theorem persist_attempt : db.persist (.of state { invocation := some record, attempt := some attempt }) =
      (db.withInvocation record).putAttempt attempt := by
  have held : (state.attempts.set attempt.id attempt).get attempt.id = some attempt :=
    get_set_self _
  unfold persist
  simp only [Buffer.of, apply, isSome_some, some_or, map_some,
    map_none, toList_some, toList_none, filterMap_cons, filterMap_nil,
    held, foldlM_cons, foldlM_nil, bind_pure]
  rfl

theorem persist_delta (fresh : ∀ earlier ∈ state.deltas delta.attemptId, earlier.sequence < delta.sequence) :
    db.persist (.of state { attempt := some attempt, delta := some delta }) =
      (db.putAttempt attempt).bind fun db => db.putDelta delta := by
  have held : (state.attempts.set attempt.id attempt).get attempt.id = some attempt :=
    get_set_self _
  have none : (state.deltas delta.attemptId).find? (·.sequence = delta.sequence) = none := by
    rw [find?_eq_none]
    intro earlier among same
    have := fresh earlier among
    rw [of_decide_eq_true same] at this
    omega
  have found : (state.deltas delta.attemptId ++ [delta]).find? (·.sequence = delta.sequence) = some delta := by
    rw [find?_append, none]
    simp
  unfold persist
  simp only [Buffer.of, apply, isSome_none, map_some, map_none,
    toList_some, toList_none, filterMap_cons, filterMap_nil, held,
    update_self, found, foldlM_cons, foldlM_nil, bind_pure]
  rfl

theorem persist_proposal (proposal : ToolProposalRecord) :
    db.persist (.of state { proposal := some proposal }) = db.putProposal proposal := by
  unfold persist
  simp only [Buffer.of, apply, isSome_none, map_some, map_none, toList_some, toList_none, filterMap_cons, filterMap_nil,
    update_self, foldlM_cons, foldlM_nil, bind_pure]
  rfl

/-- The generator gives every identifier once, and none is empty. -/
structure Generates (surroundings : Surroundings) : Prop where
  once : ∀ drawing other, surroundings.ids drawing "attempt" = surroundings.ids other "attempt" → drawing = other
  named : ∀ drawing, surroundings.ids drawing "attempt" ≠ ""

/-- The attempts of a state have been given their identifiers. -/
def Issued (surroundings : Surroundings) (drawn : Drawn) (state : AttemptStoreState) : Prop :=
  ∀ entry ∈ state.attempts, ∃ drawing < drawn.ids, entry.1 = surroundings.ids drawing "attempt"

theorem fresh_attempt {attempt : AttemptRecord} (generates : Generates env) (issued : Issued env drawn state)
    (since : drawn.ids ≤ drawing) (drew : attempt.id = env.ids drawing "attempt") :
    state.attempts.get attempt.id = none := by
  rw [Record.get_eq_none_iff]
  intro entry member same
  obtain ⟨earlier, _, is⟩ := issued entry member
  have := generates.once earlier drawing (by rw [← is, same, drew])
  omega

theorem Filed.fresh_attempt {attempt : AttemptRecord} (filed : Filed db) (generates : Generates env)
    (issued : ∀ invId, Issued env drawn (db.load invId)) (since : drawn.ids ≤ drawing)
    (drew : attempt.id = env.ids drawing "attempt") : db.attempts.get attempt.id = none := by
  cases there : db.attempts.get attempt.id with
  | none => rfl
  | some row =>
    have absent := AI.fresh_attempt generates (issued row.invocationId) since drew
    have found := filed.get_attemptsOf row.invocationId attempt.id
    rw [there] at found
    simp [Option.filter] at found
    cases absent.symm.trans found

theorem persisted_revised {record : InvocationRecord} {attempt : AttemptRecord} (filed : Filed db)
    (own : record.id = invId) (found : (db.load invId).attempts.get attempt.id = some attempt)
    (revises : Revises attempt updated) : ∃ after, db.persist (.of (db.load invId)
        { invocation := some record, attempt := some updated }) = .ok after ∧
      Moved invId db after
        ((db.load invId).apply { invocation := some record, attempt := some updated }) := by
  have first := moved_invocation filed own
  have found' : ((db.withInvocation record).load invId).attempts.get attempt.id = some attempt := by
    rw [first.here]
    exact found
  obtain ⟨after, put, moved⟩ := moved_revised first.filed found' revises
  rw [first.here] at moved
  exact ⟨after, (persist_attempt record updated).trans put, first.trans moved⟩

theorem Makes.persisted (makes : Makes env drawn reached op state change out)
    (loaded : db.load op.invocationId = state) (filed : Filed db) (sound : Sound op.invocationId state)
    (generates : Generates env) (issued : ∀ invId, Issued env drawn (db.load invId)) :
    ∃ after, db.persist (.of state change) = .ok after ∧
      Moved op.invocationId db after (state.apply change) := by
  subst loaded
  cases makes with
  | nothing joined => exact ⟨db, rfl, moved_refl filed⟩
  | accept _ own => exact ⟨_, persist_invocation _, moved_invocation filed own⟩
  | @dispatch inv attempt now _ held _ _ since _ drew own =>
    have named : (updateInvocation inv now .active (some attempt.id) none).id =
        op.invocationId := sound.own inv held
    have first := moved_invocation filed named
    have invoked : ((db.withInvocation (updateInvocation inv now .active
        (some attempt.id) none)).invocations op.invocationId).isSome := by
      rw [← named, withInvocation_self]
      rfl
    have last : ∀ entry ∈ ((db.withInvocation (updateInvocation inv now .active
        (some attempt.id) none)).load op.invocationId).attempts,
        entry.2.ordinal < attempt.ordinal := by
      rw [first.here]
      intro entry among
      have within : entry.2.ordinal ∈ List.range' 1 (db.load op.invocationId).attempts.length := by
        rw [← sound.ordinals]
        exact mem_map_of_mem among
      rw [mem_range'_1] at within
      omega
    obtain ⟨after, put, moved⟩ := moved_attempted first.filed own
      (filed.fresh_attempt generates issued since drew) invoked last
    rw [first.here] at moved
    exact ⟨after, (persist_attempt _ attempt).trans put, first.trans moved⟩
  | @move inv _ _ _ _ _ _ held found _ _ revises =>
    exact persisted_revised filed (sound.own inv held) found revises
  | @append attempt updated delta found _ _ revises of =>
    obtain ⟨between, put, first⟩ := moved_revised filed found revises
    have attempted : ((between.load op.invocationId).attempts.get delta.attemptId).isSome := by
      rw [first.here, of, ← revises.id]
      exact congrArg isSome (get_set_self _)
    have below : ∀ earlier ∈ (db.load op.invocationId).deltas delta.attemptId,
        earlier.sequence < delta.sequence := by
      intro earlier among
      have within : earlier.sequence ∈ List.range' 1 attempt.streamFrontier :=
        sound.sequences found ▸ mem_map_of_mem (of ▸ among)
      rw [mem_range'_1] at within
      omega
    have last : ∀ earlier ∈ (between.load op.invocationId).deltas delta.attemptId,
        earlier.sequence < delta.sequence := by
      rw [first.here]
      exact below
    obtain ⟨after, appended, second⟩ := moved_delta first.filed attempted last
    rw [first.here] at second
    refine ⟨after, ?_, first.trans second⟩
    rw [persist_delta updated below, put]
    exact appended
  | @commit inv _ _ _ _ held found _ _ revises =>
    exact persisted_revised filed (sound.own inv held) found revises
  | @withdraw inv _ held =>
    exact ⟨_, persist_invocation _, moved_invocation filed (sound.own inv held)⟩
  | @cancel inv _ _ _ _ _ _ held _ _ found _ revises =>
    exact persisted_revised filed (sound.own inv held) found revises
  | @propose _ proposal _ _ _ _ found =>
    have there : ((db.load op.invocationId).attempts.get proposal.attemptId).isSome := by rw [found]; rfl
    obtain ⟨after, put, moved⟩ := moved_proposal filed there
    exact ⟨after, (persist_proposal proposal).trans put, moved⟩

end
end Applik8s.AI
