import Applik8s.Signals.PostgresStore
import Applik8s.Signals.Lifecycle

/-! The PostgreSQL store keeps a ledger. Its tables store one up to the order of the
facts; whatever a transaction has written when it commits, it has made entries in the
ledger that is stored by then. -/
namespace Applik8s.Signals
open Lib Postgres
open Function (update update_of_ne update_self)
open Option (bind_eq_bind bind_some bind_eq_some_iff map_eq_map)
open Session (start take_nil view_locked view_take)
variable {host : PostgresHost} {known : Set String} {rows before after : SignalRows}
  {ledger later : Ledger}

def OutboxRow.Tells (host : PostgresHost) (row : OutboxRow) (fact : OutboxFact) : Prop :=
  ∃ told, outboxRow host fact = some told ∧ row = { told with published := row.published }

/-- The signals the tables hold, as the runtime reads them. -/
def signalsOf (host : PostgresHost) (rows : SignalRows) (id : String) : Option StoredInstance :=
  (rows (.signal id)).map (signalInstance host)

structure FactNamed (host : PostgresHost) (known : Set String) (fact : OutboxFact) : Prop where
  named : fact.id = stableSignalId host.toHost [fact.signalId, fact.kind.name]
  about : ∃ key ∈ known, fact.signalId = signalIdOf host.toHost key

structure Stores (host : PostgresHost) (known : Set String) (rows : SignalRows) (ledger : Ledger) :
    Prop where
  orderly : ledger.Orderly host.toHost
  signals : ∀ id, ledger.signals id = signalsOf host rows id
  resolutions : ∀ id key, ledger.resolutions id key = (rows (.resolution id key)).map ResolutionRow.action
  occurrences : ∀ key id, rows (.occurrence key) = some id ↔
    ∃ row : SignalRow, rows (.signal id) = some row ∧ row.occurrenceKey = key
  expected : ∀ id (row : SignalRow), rows (.signal id) = some row → row.occurrenceKey ∈ known
  told : ∀ fact ∈ ledger.facts, ∃ row : OutboxRow, rows (.fact fact.id) = some row ∧ row.Tells host fact
  facts : ∀ id (row : OutboxRow), rows (.fact id) = some row → ∃ fact ∈ ledger.facts, fact.id = id
  distinct : (ledger.facts.map OutboxFact.id).Nodup
  named : ∀ fact ∈ ledger.facts, FactNamed host known fact

theorem stores_empty : Stores host known (fun _ => none) .empty where
  orderly := Ledger.orderly_empty host.toHost
  signals _ := rfl
  resolutions _ _ := rfl
  occurrences key id := by simp
  expected id row held := by simp at held
  told fact member := by simp [Ledger.empty] at member
  facts id row held := by simp at held
  distinct := by simp [Ledger.empty]
  named fact member := by simp [Ledger.empty] at member

namespace Stores

theorem signal (stores : Stores host known rows ledger) {id : String} {row : SignalRow}
    (held : rows (.signal id) = some row) : ledger.signals id = some (signalInstance host row) := by
  rw [stores.signals id, signalsOf, held]
  rfl

theorem identity (stores : Stores host known rows ledger) {id : String} {row : SignalRow}
    (held : rows (.signal id) = some row) : row.id = id ∧ id = signalIdOf host.toHost row.occurrenceKey :=
  stores.orderly.named id _ (stores.signal held)

theorem untold (stores : Stores host known rows ledger) (distinct : Collisionless host.toHost known)
    {fact : OutboxFact} (named : FactNamed host known fact)
    (silent : ledger.announced fact.kind fact.signalId = 0) : rows (.fact fact.id) = none := by
  cases held : rows (.fact fact.id) with
  | none => rfl
  | some row =>
    obtain ⟨other, member, same⟩ := stores.facts _ row held
    have its := stores.named other member
    obtain ⟨_, expected, about⟩ := named.about
    obtain ⟨_, otherExpected, otherAbout⟩ := its.about
    have hashes := its.named.symm.trans (same.trans named.named)
    rw [about, otherAbout] at hashes
    obtain ⟨ids, kinds⟩ := distinct.fact otherExpected expected hashes
    have announced := List.countP_eq_zero.mp silent other member
    exact absurd (by simp [kinds, otherAbout, about, ids]) announced

end Stores

/-- Between two states of the tables one signal was written, and one fact inserted. -/
structure Wrote (host : PostgresHost) (before after : SignalRows) (row : SignalRow) (fact : OutboxFact) :
    Prop where
  signal : after (.signal row.id) = some row
  signals : ∀ id, id ≠ row.id → after (.signal id) = before (.signal id)
  absent : before (.fact fact.id) = none
  inserted : ∃ told, outboxRow host fact = some told ∧ after (.fact fact.id) = some told
  facts : ∀ id, id ≠ fact.id → after (.fact id) = before (.fact id)

variable {row : SignalRow} {fact : OutboxFact}

theorem Stores.written (stores : Stores host known before ledger)
    (wrote : Wrote host before after row fact) (entry : ledger.Entry host.toHost later)
    (signals : later.signals = (ledger.withSignal (signalInstance host row) fact).signals)
    (facts : later.facts = ledger.facts ++ [fact]) (resolutions : ∀ id key, later.resolutions id key =
      (after (.resolution id key)).map ResolutionRow.action)
    (occurrences : ∀ key id, after (.occurrence key) = some id ↔
      ∃ held : SignalRow, after (.signal id) = some held ∧ held.occurrenceKey = key)
    (expected : row.occurrenceKey ∈ known) (named : FactNamed host known fact) : Stores host known after later where
  orderly := Ledger.entry_orderly stores.orderly entry
  signals id := by
    rw [signals, Ledger.withSignal_signals]
    split
    · rename_i same
      have here : id = row.id := same
      rw [here, signalsOf, wrote.signal]
      rfl
    · rename_i other
      rw [signalsOf, wrote.signals id other]
      exact stores.signals id
  resolutions := resolutions
  occurrences := occurrences
  expected id held found := by
    by_cases same : id = row.id
    · subst same
      rw [wrote.signal] at found
      cases found
      exact expected
    · rw [wrote.signals id same] at found
      exact stores.expected id held found
  told other member := by
    rw [facts, List.mem_append, List.mem_singleton] at member
    rcases member with earlier | rfl
    · obtain ⟨held, found, tells⟩ := stores.told other earlier
      refine ⟨held, ?_, tells⟩
      rw [wrote.facts]
      · exact found
      intro same
      rw [same, wrote.absent] at found
      cases found
    · obtain ⟨told, readable, found⟩ := wrote.inserted
      exact ⟨told, found, told, readable, rfl⟩
  facts id held found := by
    rw [facts]
    by_cases same : id = fact.id
    · exact ⟨fact, by simp, same.symm⟩
    rw [wrote.facts id same] at found
    obtain ⟨other, member, own⟩ := stores.facts id held found
    exact ⟨other, List.mem_append_left _ member, own⟩
  distinct := by
    rw [facts, List.map_append, List.map_singleton, List.nodup_append]
    refine ⟨stores.distinct, by simp, ?_⟩
    intro first earlier second last same
    obtain ⟨other, member, rfl⟩ := List.mem_map.mp earlier
    rw [List.mem_singleton] at last
    obtain ⟨_, found, _⟩ := stores.told other member
    rw [same, last, wrote.absent] at found
    cases found
  named other member := by
    rw [facts, List.mem_append, List.mem_singleton] at member
    rcases member with earlier | rfl
    · exact stores.named other earlier
    · exact named

variable {told : OutboxRow}

private theorem wrote_overwrite (row : SignalRow) (absent : before (.fact fact.id) = none)
    (readable : outboxRow host fact = some told) (signal : after (.signal row.id) = some row)
    (signals : ∀ id, id ≠ row.id → after (.signal id) = before (.signal id))
    (facts : ∀ id, after (.fact id) = before (.fact id)) :
    Wrote host before (update after (.fact fact.id) (some told)) row fact where
  signal := by
    rw [update_of_ne (by simp)]
    exact signal
  signals id other := by
    rw [update_of_ne (by simp)]
    exact signals id other
  absent := absent
  inserted := ⟨told, readable, update_self ..⟩
  facts id other := by
    rw [update_of_ne (by simpa using other)]
    exact facts id

variable {id : String}

private theorem occurrences_rewritten (stores : Stores host known before ledger)
    (changed : SignalRow) (held : before (.signal id) = some row) (own : changed.occurrenceKey = row.occurrenceKey)
    (signal : after (.signal id) = some changed)
    (signals : ∀ other, other ≠ id → after (.signal other) = before (.signal other))
    (index : ∀ key, after (.occurrence key) = before (.occurrence key)) (key other : String) :
    after (.occurrence key) = some other ↔
      ∃ found : SignalRow, after (.signal other) = some found ∧ found.occurrenceKey = key := by
  rw [index, stores.occurrences]
  by_cases same : other = id
  · subst same
    simp [held, signal, own]
  · rw [signals other same]

private theorem stores_rewritten (stores : Stores host known before ledger) {middle : SignalRows}
    (same : ∀ key : SignalKey, (∀ id probe, key ≠ .resolution id probe) → middle key = before key)
    {row changed : SignalRow}
    (held : before (.signal id) = some row) (own : changed.id = row.id)
    (key : changed.occurrenceKey = row.occurrenceKey) (about : fact.signalId = row.id)
    (named : fact.id = stableSignalId host.toHost [fact.signalId, fact.kind.name])
    (absent : before (.fact fact.id) = none) (readable : outboxRow host fact = some told)
    (entry : ledger.Entry host.toHost later)
    (signals : later.signals = (ledger.withSignal (signalInstance host changed) fact).signals)
    (facts : later.facts = ledger.facts ++ [fact]) (resolutions : ∀ other probe, later.resolutions other probe =
      (middle (.resolution other probe)).map ResolutionRow.action) :
    Stores host known (update (update middle (.signal id) (some changed))
      (.fact fact.id) (some told)) later := by
  obtain ⟨here, derived⟩ := stores.identity held
  have expected := stores.expected _ row held
  have place : changed.id = id := own.trans here
  subst place
  refine stores.written (wrote_overwrite changed absent readable ?_ ?_ ?_) entry signals facts ?_ ?_ ?_ ?_
  · exact update_self ..
  · intro other apart
    rw [update_of_ne (by simpa using apart)]
    exact same _ (by simp)
  · intro other
    rw [update_of_ne (by simp)]
    exact same _ (by simp)
  · intro other probe
    rw [update_of_ne (by simp), update_of_ne (by simp)]
    exact resolutions other probe
  · refine occurrences_rewritten stores changed held key ?_ ?_ ?_
    · rw [update_of_ne (by simp)]
      exact update_self ..
    · intro other apart
      rw [update_of_ne (by simp), update_of_ne (by simpa using apart)]
      exact same _ (by simp)
    · intro probe
      rw [update_of_ne (by simp), update_of_ne (by simp)]
      exact same _ (by simp)
  · rw [key]
    exact expected
  · exact ⟨named, row.occurrenceKey, expected, about.trans (here.trans derived)⟩

namespace Stores

theorem expire (stores : Stores host known before ledger) {id expiredAt : String} {row : SignalRow}
    {told : OutboxRow} (held : before (.signal id) = some row) (pending : row.terminal = none)
    (absent : before (.fact (expiredFact host.toHost (signalInstance host row) expiredAt).id) = none)
    (readable : outboxRow host (expiredFact host.toHost (signalInstance host row) expiredAt) = some told) :
    Stores host known (update (update before (.signal id) (some { row with terminal := some (.expired expiredAt) }))
        (.fact (expiredFact host.toHost (signalInstance host row) expiredAt).id) (some told))
      (ledger.withSignal ((signalInstance host row).lapsedAt expiredAt)
        (expiredFact host.toHost (signalInstance host row) expiredAt)) := by
  have key : ledger.signals (signalInstance host row).id = some (signalInstance host row) := by
    rw [show (signalInstance host row).id = id from (stores.identity held).1]
    exact stores.signal held
  exact stores_rewritten stores (fun _ _ => rfl) held rfl rfl rfl rfl absent readable
    (.expire _ expiredAt key pending) rfl rfl stores.resolutions

theorem resolve (stores : Stores host known before ledger) {req : ResolutionRequest} {row : SignalRow}
    {receipt : Receipt} {told : OutboxRow} (held : before (.signal req.id) = some row) (pending : row.terminal = none)
    {fact : OutboxFact} (tells : fact = resolvedFact host.toHost (signalInstance host row) req.action req.decidedAt)
    (absent : before (.fact fact.id) = none) (readable : outboxRow host fact = some told) :
    Stores host known (update (update
          (update before (.resolution req.id req.idempotencyKey) (some ⟨req.action, receipt⟩))
          (.signal req.id)
          (some { row with terminal := some (.resolved req.action req.input req.actor receipt
            req.decidedAt) }))
        (.fact fact.id) (some told))
      ((ledger.withSignal ((signalInstance host row).decidedBy req receipt) fact).withResolution req.id
        req.idempotencyKey req.action) := by
  subst tells
  obtain ⟨own, _⟩ := stores.identity held
  have key : ledger.signals (signalInstance host row).id = some (signalInstance host row) := by
    rw [show (signalInstance host row).id = req.id from own]
    exact stores.signal held
  refine stores_rewritten stores ?_ held rfl rfl rfl rfl absent readable ?_ rfl rfl ?_
  · intro other apart
    exact update_of_ne (apart _ _) _ _
  · rw [← own]
    exact .resolve _ req.action req.input req.actor receipt req.decidedAt req.idempotencyKey key pending
  intro other probe
  rw [Ledger.withResolution_resolutions]
  by_cases same : other = req.id ∧ probe = req.idempotencyKey
  · obtain ⟨rfl, rfl⟩ := same
    rw [if_pos ⟨rfl, rfl⟩, update_self]
    rfl
  · rw [if_neg same, update_of_ne (by simpa using same)]
    exact stores.resolutions other probe

theorem issue (stores : Stores host known before ledger) {row : SignalRow} {told : OutboxRow}
    (vacant : before (.signal row.id) = none) (unused : before (.occurrence row.occurrenceKey) = none)
    (derived : row.id = signalIdOf host.toHost row.occurrenceKey) (pending : row.terminal = none)
    (expected : row.occurrenceKey ∈ known)
    (absent : before (.fact (issuedFact host.toHost (signalInstance host row)).id) = none)
    (readable : outboxRow host (issuedFact host.toHost (signalInstance host row)) = some told)
    (signal : after (.signal row.id) = some row)
    (signals : ∀ id, id ≠ row.id → after (.signal id) = before (.signal id))
    (index : after (.occurrence row.occurrenceKey) = some row.id)
    (indexes : ∀ key, key ≠ row.occurrenceKey → after (.occurrence key) = before (.occurrence key))
    (resolutions : ∀ id key, after (.resolution id key) = before (.resolution id key))
    (facts : ∀ id, after (.fact id) = before (.fact id)) : Stores host known
      (update after (.fact (issuedFact host.toHost (signalInstance host row)).id) (some told))
      (ledger.withSignal (signalInstance host row) (issuedFact host.toHost (signalInstance host row))) := by
  have missing : ledger.signals (signalInstance host row).id = none := by
    rw [stores.signals, signalsOf, show (signalInstance host row).id = row.id from rfl, vacant]
    rfl
  refine stores.written (wrote_overwrite row absent readable signal signals facts)
    (.issue _ missing derived pending) rfl rfl ?_ ?_ expected ⟨rfl, row.occurrenceKey, expected, derived⟩
  · intro other probe
    rw [update_of_ne (by simp), resolutions]
    exact stores.resolutions other probe
  intro key id
  rw [update_of_ne (by simp), update_of_ne (by simp)]
  by_cases own : id = row.id
  · subst own
    by_cases same : key = row.occurrenceKey
    · subst same
      simp [index, signal]
    rw [indexes key same, signal]
    have elsewhere := (stores.occurrences key row.id).not.mpr (by simp [vacant])
    simp [elsewhere, Ne.symm same]
  rw [signals id own]
  by_cases same : key = row.occurrenceKey
  · subst same
    have nowhere := (stores.occurrences row.occurrenceKey id).not.mp (by simp [unused])
    rw [index]
    exact iff_of_false (by simpa using Ne.symm own) nowhere
  · rw [indexes key same]
    exact stores.occurrences key id

end Stores

/-- What the transactions of the store agree on: the tables store a ledger, and every
commit makes entries in it. -/
def signalAccord (host : PostgresHost) (known : Set String) (watch : Watch host.toHost known) :
    Accord (signalDialect host) where
  invariant rows := (∃ ledger, Stores host known rows ledger) ∧ watch.holds (signalsOf host rows)
  related before after := ∀ ledger, Stores host known before ledger →
    ∃ later, Stores host known after later ∧ ledger.Entries host.toHost later
  refl _ ledger stores := ⟨ledger, stores, .refl⟩
  trans one two ledger stores := by
    obtain ⟨middle, between, first⟩ := one ledger stores
    obtain ⟨later, after, second⟩ := two middle between
    exact ⟨later, after, first.trans second⟩

variable {watch : Watch host.toHost known} {operation : Operation} {seen : SignalRows}
  {session : Session (signalDialect host)} {writes : Writes (signalDialect host)}

/-- If the session were committed now, it would have made entries of the call. -/
def Ready (known : Set String) (watch : Watch host.toHost known) (operation : Operation) (seen : SignalRows)
    (session : Session (signalDialect host)) : Prop :=
  ∀ rows, (signalAccord host known watch).related seen rows →
    (signalAccord host known watch).invariant rows → session.Holds rows →
    ∀ ledger, Stores host known rows ledger →
      ∃ later, Stores host known (session.view rows) later ∧ operation.EntersAll host.toHost ledger later

/-- A call may fail anywhere; where it succeeds it is ready to be committed, and `asserts`
holds of its result and the signals then. -/
def Succeeds (known : Set String) (watch : Watch host.toHost known) (operation : Operation) {α : Type}
    (asserts : α → (String → Option StoredInstance) → Prop) :
    Except Failure α → SignalRows → Session (signalDialect host) → Prop
  | .ok value, seen, session => Ready known watch operation seen session ∧
      ∀ rows, (signalAccord host known watch).related seen rows →
        (signalAccord host known watch).invariant rows → session.Holds rows →
        asserts value (signalsOf host (session.view rows))
  | .error _, _, _ => True

abbrev Kept (watch : Watch host.toHost known) : SignalRows → Prop := (signalAccord host known watch).invariant

abbrev Since (watch : Watch host.toHost known) : SignalRows → SignalRows → Prop :=
  (signalAccord host known watch).related

/-- Every way through the program `Succeeds`. -/
abbrev Sustains {α : Type} (watch : Watch host.toHost known) (operation : Operation)
    (asserts : α → (String → Option StoredInstance) → Prop) :
    SignalRows → Session (signalDialect host) → SignalProgram α → Prop :=
  Upholds (signalAccord host known watch) (Succeeds known watch operation asserts)

variable {α : Type}

theorem Ready.done {value : α} (ready : Ready known watch op seen session) :
    Succeeds known watch op (fun _ _ => True) (.ok value) seen session :=
  ⟨ready, fun _ _ _ _ => trivial⟩

theorem ready_start : Ready known watch op seen .start :=
  fun _ _ _ _ ledger stores => ⟨ledger, stores, .refl⟩

theorem Ready.since (ready : Ready known watch op seen session)
    (passed : Since watch seen rows) : Ready known watch op rows session :=
  fun _ further => ready _ ((signalAccord host known watch).trans passed further)

theorem Ready.stores (ready : Ready known watch op seen session)
    (since : Since watch seen rows) (kept : Kept watch rows) (holds : session.Holds rows) :
    ∃ ledger, Stores host known (session.view rows) ledger := by
  obtain ⟨ledger, stores⟩ := kept.1
  obtain ⟨later, shown, _⟩ := ready rows since kept holds ledger stores
  exact ⟨later, shown⟩

theorem Ready.locked (ready : Ready known watch op rows session)
    (same : ∀ write ∈ writes, write.2 = session.view rows write.1) :
    Ready known watch op rows (session.take rows writes) := by
  intro now since kept holds ledger stores
  obtain ⟨entered, shown, enters⟩ := ready now since kept holds.of_take ledger stores
  refine ⟨entered, ?_, enters⟩
  rw [view_take, overwrite_same fun write member => ?_]
  · exact shown
  · rw [same write member]
    exact (view_locked holds write.1 (List.mem_map_of_mem member)).symm

variable {next : Session (signalDialect host)}

theorem Ready.enters (ready : Ready known watch op rows session)
    (wider : ∀ later, next.Holds later → session.Holds later)
    (enters : ∀ later, Since watch rows later → next.Holds later →
      ∀ ledger, Stores host known (session.view later) ledger →
        ∃ entered, Stores host known (next.view later) entered ∧ op.Enters host.toHost ledger entered) :
    Ready known watch op rows next := by
  intro now since kept holds ledger stores
  obtain ⟨middle, shown, earlier⟩ := ready now since kept (wider now holds) ledger stores
  obtain ⟨entered, final, last⟩ := enters now since holds middle shown
  exact ⟨entered, final, earlier.tail last⟩

private theorem untold_of_pending (distinct : Collisionless host.toHost known) (stores : Stores host known rows ledger)
    (held : rows (.signal id) = some row) (pending : row.terminal = none)
    (about : fact.signalId = row.id) (named : fact.id = stableSignalId host.toHost [fact.signalId, fact.kind.name])
    (other : fact.kind ≠ .issued) : rows (.fact fact.id) = none := by
  obtain ⟨own, derived⟩ := stores.identity held
  refine stores.untold distinct ⟨named, row.occurrenceKey, stores.expected _ row held,
    about.trans (own.trans derived)⟩ ?_
  rw [stores.orderly.told, about, own, stores.signal held]
  have undecided : (signalInstance host row).terminal = none := pending
  cases kind : fact.kind with
  | issued => exact absurd kind other
  | resolved | expired => simp [Ledger.due, undecided]

private theorem Ready.tells {base next : Session (signalDialect host)} (ready : Ready known watch op rows base)
    (wider : ∀ later, next.Holds later → base.Holds later)
    (facts : ∀ later, next.view later (.fact fact.id) = base.view later (.fact fact.id))
    (kept : Kept watch rows) (holds : next.Holds rows)
    (untold : ∀ ledger, Stores host known (base.view rows) ledger → base.view rows (.fact fact.id) = none)
    (final : ∀ later ledger, next.Holds later → Stores host known (base.view later) ledger →
      base.view later (.fact fact.id) = none → ∃ entered,
        Stores host known (update (next.view later) (.fact fact.id) (some told)) entered ∧
          op.Enters host.toHost ledger entered) : Ready known watch op rows
      (next.take rows (insertIfAbsent (next.view rows) (.fact fact.id) told)) := by
  obtain ⟨ledger, stores⟩ := ready.stores ((signalAccord host known watch).refl rows) kept (wider rows holds)
  have absent : next.view rows (.fact fact.id) = none := (facts rows).trans (untold ledger stores)
  have inserts : insertIfAbsent (next.view rows) (.fact fact.id) told = [⟨.fact fact.id, some told⟩] := by
    unfold insertIfAbsent
    rw [absent]
  rw [inserts]
  refine ready.enters (fun later still => wider later still.of_take) ?_
  intro later _ still ledger stores
  have missing := (view_locked still (.fact fact.id) (by simp [touched])).trans absent
  rw [view_take, overwrite_cons, overwrite_nil]
  exact final later ledger still.of_take stores ((facts later).symm.trans missing)

theorem Ready.expired (distinct : Collisionless host.toHost known)
    (ready : Ready known watch op rows session) {id expiredAt : String}
    (shows : ∀ later, session.Holds later → session.view later (.signal id) = some row)
    (pending : row.terminal = none)
    (tells : fact = expiredFact host.toHost (signalInstance host row) expiredAt)
    (enters : ∀ ledger : Ledger, ledger.signals id = some (signalInstance host row) → row.id = id →
      op.Enters host.toHost ledger (ledger.withSignal ((signalInstance host row).lapsedAt expiredAt) fact))
    (kept : Kept watch rows) {written : SignalRows} (wrote : next = session.take written
      [⟨.signal id, some { row with terminal := some (.expired expiredAt) }⟩])
    (holds : next.Holds rows) (readable : outboxRow host fact = some told) :
    Ready known watch op rows (next.take rows (insertIfAbsent (next.view rows) (.fact fact.id) told)) := by
  have wider : ∀ later, next.Holds later → session.Holds later := by
    rw [wrote]
    exact fun later still => still.of_take
  have shown : ∀ later, next.view later = update (session.view later) (.signal id)
      (some { row with terminal := some (.expired expiredAt) }) := by
    intro later
    rw [wrote, view_take, overwrite_cons, overwrite_nil]
  refine ready.tells wider (fun later => ?_) kept holds ?_ ?_
  · rw [shown]
    exact update_of_ne (by simp) _ _
  · intro ledger stores
    subst tells
    exact untold_of_pending distinct stores (shows rows (wider rows holds)) pending rfl rfl nofun
  intro later ledger still stores missing
  have held := shows later (wider later still)
  refine ⟨_, ?_, enters ledger (stores.signal held) (stores.identity held).1⟩
  rw [shown]
  subst tells
  exact stores.expire held pending missing readable

theorem Ready.resolved (distinct : Collisionless host.toHost known) {req : ResolutionRequest}
    {receipt : Receipt} (ready : Ready known watch op rows session)
    (shows : ∀ later, session.Holds later → session.view later (.signal req.id) = some row)
    (pending : row.terminal = none)
    (tells : fact = resolvedFact host.toHost (signalInstance host row) req.action req.decidedAt)
    (enters : ∀ ledger : Ledger, ledger.signals req.id = some (signalInstance host row) →
      row.id = req.id → op.Enters host.toHost ledger
        ((ledger.withSignal ((signalInstance host row).decidedBy req receipt) fact).withResolution
          req.id req.idempotencyKey req.action))
    (kept : Kept watch rows) (wider : ∀ later, next.Holds later → session.Holds later)
    (shown : ∀ later, next.view later = update (update (session.view later) (.resolution req.id req.idempotencyKey)
        (some ⟨req.action, receipt⟩)) (.signal req.id)
      (some { row with terminal := some (.resolved req.action req.input req.actor receipt
        req.decidedAt) }))
    (holds : next.Holds rows) (readable : outboxRow host fact = some told) :
    Ready known watch op rows (next.take rows (insertIfAbsent (next.view rows) (.fact fact.id) told)) := by
  refine ready.tells wider (fun later => ?_) kept holds ?_ ?_
  · rw [shown, update_of_ne (by simp)]
    exact update_of_ne (by simp) _ _
  · intro ledger stores
    subst tells
    exact untold_of_pending distinct stores (shows rows (wider rows holds)) pending rfl rfl nofun
  · intro later ledger still stores missing
    have held := shows later (wider later still)
    refine ⟨_, ?_, enters ledger (stores.signal held) (stores.identity held).1⟩
    rw [shown]
    exact stores.resolve held pending tells missing readable

theorem Ready.issued (distinct : Collisionless host.toHost known)
    (derived : row.id = signalIdOf host.toHost row.occurrenceKey) (pending : row.terminal = none)
    (expected : row.occurrenceKey ∈ known)
    (tells : fact = issuedFact host.toHost (signalInstance host row))
    (enters : ∀ ledger : Ledger, ledger.signals row.id = none →
      op.Enters host.toHost ledger (ledger.withSignal (signalInstance host row) fact))
    (kept : Kept watch rows) (vacant : ∀ later, next.Holds later →
      later (.signal row.id) = none ∧ later (.occurrence row.occurrenceKey) = none)
    (signal : ∀ later, next.view later (.signal row.id) = some row)
    (signals : ∀ later id, id ≠ row.id → next.view later (.signal id) = later (.signal id))
    (index : ∀ later, next.view later (.occurrence row.occurrenceKey) = some row.id)
    (indexes : ∀ later key, key ≠ row.occurrenceKey → next.view later (.occurrence key) = later (.occurrence key))
    (resolutions : ∀ later id key, next.view later (.resolution id key) = later (.resolution id key))
    (facts : ∀ later id, next.view later (.fact id) = later (.fact id))
    (holds : next.Holds rows) (readable : outboxRow host fact = some told) :
    Ready known watch op rows (next.take rows (insertIfAbsent (next.view rows) (.fact fact.id) told)) := by
  have missing : ∀ later ledger, next.Holds later → Stores host known later ledger →
      ledger.signals row.id = none := by
    intro later ledger still stores
    rw [stores.signals, signalsOf, (vacant later still).1]
    rfl
  refine ready_start.tells (fun later _ => Session.holds_start later) (fun later => facts later _) kept holds ?_ ?_
  · intro ledger stores
    subst tells
    refine Stores.untold stores distinct ⟨rfl, row.occurrenceKey, expected, derived⟩ ?_
    rw [stores.orderly.told]
    exact congrArg (Ledger.due · .issued) (missing rows ledger holds stores)
  intro later ledger still stores absent
  refine ⟨_, ?_, enters ledger (missing later ledger still stores)⟩
  subst tells
  exact Stores.issue stores (vacant later still).1 (vacant later still).2 derived pending expected absent
    readable (signal later) (signals later) (index later) (indexes later) (resolutions later)
    (facts later)

private theorem signals_eq (stores : Stores host known rows ledger) : ledger.signals = signalsOf host rows :=
  funext stores.signals

variable {request : IssueRequest} {choice : List String} {reply : Option SignalRow}

private theorem insertSignal_ok {writes : SignalWrites}
    (acted : signalAct host (.insertSignal id req) choice rows = some (reply, writes)) :
    (reply = none ∧ writes = []) ∨ ∃ row, issuedRow host id req = some row ∧
      rows (.occurrence req.occurrenceKey) = none ∧ rows (.signal id) = none ∧ reply = some row ∧
      writes = [⟨.signal id, some row⟩, ⟨.occurrence req.occurrenceKey, some id⟩] := by
  unfold signalAct at acted
  cases readable : issuedRow host id req with
  | none => simp [readable] at acted
  | some row =>
    simp only [readable, bind_eq_bind, bind_some] at acted
    split at acted
    · cases acted
      exact Or.inl ⟨rfl, rfl⟩
    rename_i unused
    split at acted
    · cases acted
    rename_i vacant
    cases acted
    exact Or.inr ⟨row, rfl, by simpa using unused, by simpa using vacant, rfl, rfl⟩

private theorem updateSignal_ok {change : SignalRow → Option SignalRow}
    {writes : SignalWrites} (acted : updateSignal rows id change = (reply, writes)) :
    (reply = none ∧ writes = []) ∨ ∃ row changed, rows (.signal id) = some row ∧ change row = some changed ∧
      reply = some changed ∧ writes = [⟨.signal id, some changed⟩] := by
  unfold updateSignal at acted
  split at acted
  · rename_i changed found
    obtain ⟨row, held, made⟩ := Option.bind_eq_some_iff.mp found
    cases acted
    exact Or.inr ⟨row, changed, held, made, rfl, rfl⟩
  · cases acted
    exact Or.inl ⟨rfl, rfl⟩

private theorem issuedRow_ok (issued : issuedRow host id req = some row) :
    ∃ issuedAt expiresAt, row = freshRow id req issuedAt expiresAt := by
  simp only [issuedRow, bind_pure_comp, bind_eq_bind, bind_eq_some_iff, map_eq_map, Option.map_eq_some_iff] at issued
  obtain ⟨issuedAt, _, expiresAt, _, rfl⟩ := issued
  exact ⟨issuedAt, expiresAt, rfl⟩

private theorem eq_of_touched_insertIfAbsent {key other : SignalKey} {row : key.Row}
    (member : other ∈ @touched _ (signalDialect host) (insertIfAbsent rows key row)) : other = key := by
  unfold insertIfAbsent at member
  split at member
  · cases member
  · simpa [touched] using member

theorem postgresSignalInstance_ok {signal : StoredInstance}
    (read : postgresSignalInstance host row = .ok signal) : signal = signalInstance host row := by
  simp only [postgresSignalInstance, requiredPostgresSignalString, bind, Except.bind, pure, Except.pure]
    at read
  repeat' split at read
  all_goals cases read <;> rfl

private theorem upholds_read {next : StoredInstance → SignalProgram α}
    {asserts : α → (String → Option StoredInstance) → Prop}
    (going : Sustains watch op asserts seen session (next (signalInstance host row))) :
    Sustains watch op asserts seen session (.check (postgresSignalInstance host row) >>= next) := by
  refine upholds_bind.mpr (upholds_check.mpr ?_)
  cases read : postgresSignalInstance host row with
  | error => trivial
  | ok signal =>
    rw [postgresSignalInstance_ok read]
    exact going

private theorem upholds_checked {α β : Type} {out : Except Failure β} {next : β → SignalProgram α}
    {asserts : α → (String → Option StoredInstance) → Prop} (going : ∀ value, out = .ok value →
      Sustains watch op asserts seen session (next value)) :
    Sustains watch op asserts seen session (.check out >>= next) := by
  refine upholds_bind.mpr (upholds_check.mpr ?_)
  cases out with
  | error => trivial
  | ok value => exact going value rfl

private theorem upholds_statement {stmt : SignalStatement}
    {next : stmt.Reply → SignalProgram α} {asserts : α → (String → Option StoredInstance) → Prop}
    (going : ∀ rows choice reply writes, Since watch seen rows → Kept watch rows → session.Holds rows →
      signalAct host stmt choice (session.view rows) = some (reply, writes) →
      Sustains watch op asserts rows (session.take rows writes) (next reply)) :
    Sustains watch op asserts seen session (Postgres.run stmt >>= next) :=
  upholds_run (fun _ _ => trivial) going

private theorem upholds_outbox {value : α} {asserts : α → (String → Option StoredInstance) → Prop}
    (said : ∀ rows, session.Holds rows → asserts value (signalsOf host (session.view rows)))
    (ready : ∀ rows told, Since watch seen rows → Kept watch rows → session.Holds rows →
      outboxRow host fact = some told →
      Ready known watch op rows (session.take rows (insertIfAbsent (session.view rows) (.fact fact.id) told))) :
    Sustains watch op asserts seen session (insertPostgresSignalOutbox fact >>= fun _ => pure value) := by
  refine upholds_statement fun rows choice reply writes since kept holds acted => ?_
  simp only [signalAct, bind_pure_comp, map_eq_map, Option.map_eq_some_iff, Prod.mk.injEq] at acted
  obtain ⟨told, readable, -, rfl⟩ := acted
  refine ⟨ready rows told since kept holds readable, fun later _ _ still => ?_⟩
  have signals : signalsOf host ((session.take rows
      (insertIfAbsent (session.view rows) (.fact fact.id) told)).view later) =
      signalsOf host (session.view later) := by
    funext id
    rw [signalsOf, view_take, overwrite_untouched]
    · rfl
    · exact fun member => absurd (eq_of_touched_insertIfAbsent member) (by simp)
  rw [signals]
  exact said later still.of_take

variable {authorize : IssueAuthorizer}

private theorem issue_tail (distinct : Collisionless host.toHost known)
    {receipt : Option Receipt} (issuedAt expiresAt : Int)
    (expected : req.occurrenceKey ∈ known)
    (allowed : authorize req (signalIdOf host.toHost req.occurrenceKey) = .ok receipt)
    (fresh : row = { freshRow (signalIdOf host.toHost req.occurrenceKey) req issuedAt expiresAt with
      issueReceipt := receipt.getD req.issueReceipt })
    (vacant : ∀ later, session.Holds later →
      later (.signal row.id) = none ∧ later (.occurrence row.occurrenceKey) = none)
    (shown : ∀ later, session.view later = update (update later (.signal row.id) (some row))
      (.occurrence row.occurrenceKey) (some row.id)) :
    Sustains watch (.issue req authorize)
      (fun answer signals => (Operation.issue req authorize).Answered host.toHost signals answer) seen session
      (do
        let signal ← .check (postgresSignalInstance host row)
        insertPostgresSignalIssuanceEvent host signal
        insertPostgresSignalOutbox (issuedFact host.toHost signal)
        return Answer.issued signal false) := by
  refine upholds_read ?_
  unfold insertPostgresSignalIssuanceEvent
  split
  · exact trivial
  rename_i recordedAt _
  refine upholds_statement fun rows choice reply writes since kept holds acted => ?_
  have inserted := (Prod.mk.inj (Option.some.inj acted)).2
  -- the event is of no concern to the ledger
  have beside : ∀ later (key : SignalKey), (∀ id, key ≠ .event id) → (session.take rows writes).view later key =
        update (update later (.signal row.id) (some row))
          (.occurrence row.occurrenceKey) (some row.id) key := by
    intro later key other
    rw [view_take, overwrite_untouched, shown]
    rw [← inserted]
    exact fun member => other _ (eq_of_touched_insertIfAbsent member)
  have derived : row.id = signalIdOf host.toHost row.occurrenceKey := by
    rw [fresh]
    rfl
  have answered : ∀ later, (session.take rows writes).Holds later →
      (Operation.issue req authorize).Answered host.toHost (signalsOf host ((session.take rows writes).view later))
        (.issued (signalInstance host row) false) := by
    intro later _
    refine ⟨signalInstance host row, false, row.terminal, rfl, by rw [fresh]; rfl, ?_⟩
    rw [show signalIdOf host.toHost req.occurrenceKey = row.id by rw [fresh]; rfl, signalsOf,
      beside _ _ (by simp), update_of_ne (by simp), update_self]
    rfl
  refine upholds_outbox answered fun last told since kept holds readable => ?_
  refine Ready.issued distinct derived (by rw [fresh]; rfl) (by rw [fresh]; exact expected) rfl ?_ kept
    (fun later still => vacant later still.of_take) ?_ ?_ ?_ ?_ ?_ ?_ holds readable
  · intro ledger absent
    have named : row.id = signalIdOf host.toHost req.occurrenceKey := by rw [fresh]; rfl
    refine .issue (named ▸ absent) allowed (host.dates.toISOString issuedAt) (host.dates.toISOString expiresAt) ?_
    rw [fresh]
    rfl
  · intro later
    rw [beside _ _ (by simp), update_of_ne (by simp)]
    exact update_self ..
  · intro later id other
    rw [beside _ _ (by simp), update_of_ne (by simp)]
    exact update_of_ne (by simpa using other) _ _
  · intro later
    rw [beside _ _ (by simp)]
    exact update_self ..
  · intro later key other
    rw [beside _ _ (by simp), update_of_ne (by simpa using other)]
    exact update_of_ne (by simp) _ _
  · intro later id key
    rw [beside _ _ (by simp), update_of_ne (by simp)]
    exact update_of_ne (by simp) _ _
  · intro later id
    rw [beside _ _ (by simp), update_of_ne (by simp)]
    exact update_of_ne (by simp) _ _

private theorem vacant_of_inserted {first now : SignalRows} {id key : String}
    (vacant : first (.signal id) = none) (unused : first (.occurrence key) = none)
    (holds : ((start : Session (signalDialect host)).take first
      [⟨.signal id, some row⟩, ⟨.occurrence key, some id⟩]).Holds now) :
    now (.signal id) = none ∧ now (.occurrence key) = none :=
  ⟨(view_locked holds (.signal id) (by simp [touched])).trans vacant,
    (view_locked holds (.occurrence key) (by simp [touched])).trans unused⟩

private theorem view_inserted {first now : SignalRows} {id key : String} :
    ((start : Session (signalDialect host)).take first
      [⟨.signal id, some row⟩, ⟨.occurrence key, some id⟩]).view now (.signal id) = some row := by
  rw [view_take, overwrite_cons, overwrite_cons, overwrite_nil, update_of_ne (by simp)]
  exact update_self ..

private theorem view_inserted_rewritten {first second now : SignalRows} {id key : String} {row changed : SignalRow} :
    (((start : Session (signalDialect host)).take first
      [⟨.signal id, some row⟩, ⟨.occurrence key, some id⟩]).take second [⟨.signal id, some changed⟩]).view now =
      update (update now (.signal id) (some changed)) (.occurrence key) (some id) := by
  rw [view_take, view_take]
  change update (update (update now (.signal id) (some row))
    (.occurrence key) (some id)) (.signal id) (some changed) = _
  have apart : SignalKey.occurrence key ≠ .signal id := by simp
  rw [Function.update_comm apart, Function.update_idem]

private theorem replay_answered (indexed : rows (.occurrence req.occurrenceKey) = some id)
    (held : rows (.signal id) = some row) (stored : ∃ ledger, Stores host known rows ledger)
    (since : Since watch rows after) : (Operation.issue req authorize).Answered host.toHost (signalsOf host after)
      (.issued (signalInstance host row) true) := by
  obtain ⟨ledger, stores⟩ := stored
  obtain ⟨_, now, passed⟩ := since ledger stores
  obtain ⟨found, here, own⟩ := (stores.occurrences _ id).mp indexed
  obtain rfl : row = found := Option.some.inj (held.symm.trans here)
  obtain ⟨terminal, present, _⟩ :=
    (Ledger.entries_orderly stores.orderly passed).2.signals id _ (stores.signal held)
  refine ⟨signalInstance host row, true, terminal, rfl, own, ?_⟩
  rw [← signals_eq now, ← own, ← (stores.identity held).2]
  exact present

theorem issue_upholds (distinct : Collisionless host.toHost known) (expected : req.occurrenceKey ∈ known) :
    Sustains watch (.issue req authorize)
      (fun answer signals => (Operation.issue req authorize).Answered host.toHost signals answer) seen .start
      (Postgres.issue host req authorize) := by
  refine upholds_statement fun first choice reply writes _ _ _ acted => ?_
  rcases insertSignal_ok acted with ⟨rfl, rfl⟩ | ⟨row, issued, unused, vacant, rfl, rfl⟩
  · rw [take_nil]
    refine upholds_statement fun rows choice reply writes _ kept _ acted => ?_
    have unlocked := (Prod.mk.inj (Option.some.inj acted)).2
    rw [← unlocked, take_nil]
    cases reply with
    | none => exact trivial
    | some row =>
      obtain ⟨_, indexed, held⟩ := Option.bind_eq_some_iff.mp (Prod.mk.inj (Option.some.inj acted)).1
      exact upholds_read ⟨ready_start, fun later since _ _ => replay_answered indexed held kept.1 since⟩
  obtain ⟨issuedAt, expiresAt, rfl⟩ := issuedRow_ok issued
  refine upholds_read (upholds_checked fun receipt allowed => ?_)
  cases receipt with
  | none =>
    exact issue_tail distinct issuedAt expiresAt expected allowed rfl (fun later => vacant_of_inserted vacant unused)
      fun later => view_take
  | some =>
    refine upholds_statement fun second choice reply writes _ _ _ acted => ?_
    rcases updateSignal_ok (Option.some.inj acted) with ⟨rfl, rfl⟩ | ⟨_, _, found, made, rfl, rfl⟩
    · exact trivial
    cases made
    cases view_inserted.symm.trans found
    exact issue_tail distinct issuedAt expiresAt expected allowed rfl
      (fun later holds => vacant_of_inserted vacant unused holds.of_take)
      fun later => view_inserted_rewritten

/-- A session shows a signal as it is here, whatever is committed. -/
def Shows (session : Session (signalDialect host)) (id : String) (row : SignalRow) : Prop :=
  ∀ later, session.Holds later → session.view later (.signal id) = some row

private theorem upholds_forUpdate {next : Option SignalRow → SignalProgram α}
    {asserts : α → (String → Option StoredInstance) → Prop} (ready : Ready known watch op seen session)
    (missing : ∀ rows, Ready known watch op rows session → Sustains watch op asserts rows session (next none))
    (found : ∀ rows row locked, Ready known watch op rows locked → Shows locked id row →
      Sustains watch op asserts rows locked (next (some row))) :
    Sustains watch op asserts seen session (Postgres.run (.signalForUpdate id) >>= next) := by
  refine upholds_statement fun rows choice reply writes since kept holds acted => ?_
  rcases updateSignal_ok (Option.some.inj acted) with ⟨rfl, rfl⟩ | ⟨row, _, held, made, rfl, rfl⟩
  · rw [take_nil]
    exact missing rows (ready.since since)
  cases made
  refine found rows row _ ((ready.since since).locked (by simpa using held.symm)) fun later _ => ?_
  rw [view_take]
  exact update_self ..

private theorem updateTerminal_ok {id updatedAt : String} {terminal : Terminal} {writes : SignalWrites}
    (acted : signalAct host (.updateTerminal id terminal updatedAt) choice rows = some (reply, writes))
    (held : rows (.signal id) = some row) : reply = some { row with terminal := some terminal } ∧
      writes = [⟨.signal id, some { row with terminal := some terminal }⟩] := by
  simp only [signalAct, bind_eq_bind, bind_eq_some_iff, pure, Option.some.injEq] at acted
  obtain ⟨_, _, acted⟩ := acted
  simp only [updateSignal, held, bind_some, Prod.mk.injEq] at acted
  exact ⟨acted.1.symm, acted.2.symm⟩

private theorem updatePending_ok {id updatedAt : String} {terminal : Terminal}
    {reply : Option String} {writes : SignalWrites}
    (acted : signalAct host (.updatePending id terminal updatedAt) choice rows = some (reply, writes))
    (held : rows (.signal id) = some row) (pending : row.terminal = none) : reply = some row.contract.id ∧
      writes = [⟨.signal id, some { row with terminal := some terminal }⟩] := by
  simp only [signalAct, bind_eq_bind, bind_eq_some_iff, pure, Option.some.injEq] at acted
  obtain ⟨_, _, acted⟩ := acted
  simp only [updateSignal, held, pending, bind_some, Option.isNone_none, if_true, Prod.mk.injEq]
    at acted
  exact ⟨acted.1.symm, acted.2.symm⟩

variable {finalize : TerminalFinalizer}

theorem expire_upholds (distinct : Collisionless host.toHost known) {id expiredAt : String} :
    Sustains watch (.expire id expiredAt finalize) (fun _ _ => True) seen .start
      (Postgres.expire host id expiredAt finalize) := by
  refine upholds_forUpdate ready_start (fun _ _ => trivial) fun rows row locked ready shows => ?_
  refine upholds_read ?_
  split
  · exact ready.done
  rename_i open_
  have pending : row.terminal = none := Option.not_isSome_iff_eq_none.mp open_
  refine upholds_checked fun _ final => ?_
  refine upholds_statement fun written choice reply writes since _ holds acted => ?_
  obtain ⟨rfl, rfl⟩ := updateTerminal_ok acted (shows written holds)
  refine upholds_read (upholds_outbox (fun _ _ => trivial) fun last told later kept still readable => ?_)
  exact Ready.expired distinct (ready.since ((signalAccord host known watch).trans since later)) shows
    pending rfl (fun ledger held own => .expire held own pending final) kept rfl still readable

private theorem expireSwept_upholds (distinct : Collisionless host.toHost known) {now id : String} {limit : Int}
    (ready : Ready known watch (.expireDue now limit finalize) seen session) :
    Sustains watch (.expireDue now limit finalize) (fun _ _ => True) seen
      session (Postgres.expireSwept host now finalize id) := by
  refine upholds_checked fun _ _ => ?_
  refine upholds_forUpdate ready (fun _ still => still.done) fun rows row locked ready shows => ?_
  refine upholds_read ?_
  split
  · exact ready.done
  rename_i open_
  have pending : row.terminal = none := Option.not_isSome_iff_eq_none.mp open_
  refine upholds_checked fun _ final => ?_
  refine upholds_statement fun written choice reply writes since _ holds acted => ?_
  obtain ⟨rfl, rfl⟩ := updatePending_ok acted (shows written holds) pending
  refine upholds_checked fun _ _ => ?_
  refine upholds_outbox (fun _ _ => trivial) fun last told later kept still readable => ?_
  exact Ready.expired distinct (ready.since ((signalAccord host known watch).trans since later)) shows
    pending rfl (fun ledger held own => .sweep held own pending final) kept rfl still readable

private theorem wrapped_ok {msg : String} {passes : Failure → Bool} {out : Except Failure α} {value : α}
    (passed : wrapped msg passes out = .ok value) : out = .ok value := by
  cases out with
  | ok value => exact passed
  | error => cases passed

private theorem insertResolution_ok {id key : String} {row : ResolutionRow} {reply : Unit} {writes : SignalWrites}
    (acted : signalAct host (.insertResolution id key row) choice rows = some (reply, writes)) :
    writes = [⟨.resolution id key, some row⟩] := by
  simp only [signalAct] at acted
  split at acted
  · cases acted
  · cases acted
    rfl

section
variable (distinct : Collisionless host.toHost known)
include distinct

private theorem resolve_tail {request : ResolutionRequest} {authorize : Option ResolutionAuthorizer}
    {receipt : Option Receipt} (ready : Ready known watch (.resolve request authorize finalize) seen session)
    (shows : Shows session request.id row) (pending : row.terminal = none)
    (declared : request.action ∈ (signalInstance host row).actions)
    (allowed : authorizedReceipt request authorize (signalInstance host row) = .ok receipt) :
    Sustains watch (.resolve request authorize finalize) (fun _ _ => True) seen session (match receipt with
        | none => .throw (.error s!"Signal {request.id} resolution requires an authorization receipt.")
        | some receipt => do
          let closing := .resolved request.action request.actor receipt request.decidedAt
          .check (wrapped s!"Signal {request.id} {request.action} finalization failed." (fun _ => false)
            (finalize (signalInstance host row) closing))
          Postgres.run (.insertResolution request.id request.idempotencyKey ⟨request.action, receipt⟩)
          let terminal := .resolved request.action request.input request.actor receipt request.decidedAt
          match ← Postgres.run (.updateTerminal request.id terminal request.decidedAt) with
          | none => .throw (.error s!"Signal {request.id} resolution was lost.")
          | some updated =>
            let signal ← .check (postgresSignalInstance host updated)
            insertPostgresSignalOutbox
              (resolvedFact host.toHost (signalInstance host row) request.action request.decidedAt)
            return Answer.resolved signal .none) := by
  cases receipt with
  | none => exact trivial
  | some receipt =>
    refine upholds_checked fun _ passed => ?_
    have final := wrapped_ok passed
    refine upholds_statement fun recorded choice _ writes first _ _ acted => ?_
    obtain rfl := insertResolution_ok acted
    refine upholds_statement fun written choice reply writes second _ holds acted => ?_
    have held : (session.take recorded [⟨.resolution request.id request.idempotencyKey,
        some ⟨request.action, receipt⟩⟩]).view written (.signal request.id) = some row := by
      rw [view_take, overwrite_cons, overwrite_nil, update_of_ne (by simp)]
      exact shows written holds.of_take
    obtain ⟨rfl, rfl⟩ := updateTerminal_ok acted held
    refine upholds_read (upholds_outbox (fun _ _ => trivial) fun last told third kept still readable => ?_)
    have since := (signalAccord host known watch).trans first ((signalAccord host known watch).trans second third)
    refine Ready.resolved distinct (ready.since since) shows pending rfl
      (fun ledger held own => .resolve held own pending declared allowed final) kept
      (fun later holds => holds.of_take.of_take) (fun later => ?_) still readable
    rw [view_take, view_take]
    rfl

theorem resolve_upholds {request : ResolutionRequest} {authorize : Option ResolutionAuthorizer} :
    Sustains watch (.resolve request authorize finalize) (fun _ _ => True) seen
      .start (Postgres.resolve host request authorize finalize) := by
  refine upholds_forUpdate ready_start (fun _ _ => trivial) fun rows row locked ready shows => ?_
  refine upholds_read (upholds_statement fun first choice reply writes since _ _ acted => ?_)
  have unlocked := (Prod.mk.inj (Option.some.inj acted)).2
  rw [← unlocked, take_nil]
  have ready := ready.since since
  cases reply with
  | some replay => exact upholds_checked fun _ _ => ready.done
  | none =>
    dsimp only
    split
    · exact ready.done
    rename_i open_
    have pending : row.terminal = none := Option.not_isSome_iff_eq_none.mp open_
    split
    · exact trivial
    rename_i declared
    have declared : request.action ∈ (signalInstance host row).actions := by simpa using declared
    cases authorize with
    | none => exact resolve_tail distinct ready shows pending declared rfl
    | some =>
      refine upholds_checked fun receipt passed => ?_
      exact resolve_tail distinct ready shows pending declared (wrapped_ok passed)

theorem expireDue_upholds {now : String} {limit : Int} :
    Sustains watch (.expireDue now limit finalize) (fun _ _ => True) seen .start
      (Postgres.expireDue host now limit finalize) := by
  refine upholds_checked fun _ _ => ?_
  refine upholds_statement fun rows choice due writes since _ _ acted => ?_
  have locks : ∀ write ∈ writes, write.2 = (start : Session (signalDialect host)).view rows write.1 := by
    simp only [signalAct, bind_eq_bind, bind_eq_some_iff, pure, Option.some.injEq, Prod.mk.injEq] at acted
    obtain ⟨_, _, -, rfl⟩ := acted
    intro write member
    obtain ⟨id, _, rfl⟩ := List.mem_map.mp member
    rfl
  refine upholds_bind.mpr (Upholds.weaken ?_ (upholds_collect
    (Ready known watch (.expireDue now limit finalize)) (fun _ _ _ => True) (ready_start.locked locks)
    fun id _ seen session ready => upholds_bind.mpr (Upholds.weaken ?_ (expireSwept_upholds distinct ready))))
  · intro res seen session ended
    cases res with
    | ok => exact Ready.done ended
    | error => exact trivial
  · intro res seen session ended
    cases res with
    | ok => exact ended.1
    | error => exact trivial

/-! ### The store as a whole -/

theorem operation_upholds (expected : op.issues ⊆ known) :
    Sustains watch op (fun answer signals => op.Answered host.toHost signals answer) seen .start
      (op.inPostgres host) := by
  cases op with
  | issue => exact issue_upholds distinct (expected rfl)
  | resolve => exact resolve_upholds distinct
  | expire => exact expire_upholds distinct
  | expireDue => exact expireDue_upholds distinct

end

theorem Stores.published (stores : Stores host known before ledger)
    (others : ∀ key : SignalKey, (∀ id, key ≠ .fact id) → after key = before key)
    (facts : ∀ id, after (.fact id) = before (.fact id) ∨ after (.fact id) = (before (.fact id)).map publish) :
    Stores host known after ledger where
  orderly := stores.orderly
  signals id := by
    rw [signalsOf, others _ (by simp)]
    exact stores.signals id
  resolutions id key := by
    rw [others _ (by simp)]
    exact stores.resolutions id key
  occurrences key id := by
    rw [others _ (by simp), others _ (by simp)]
    exact stores.occurrences key id
  expected id row held := by
    rw [others _ (by simp)] at held
    exact stores.expected id row held
  told fact member := by
    obtain ⟨row, held, told, readable, same⟩ := stores.told fact member
    rcases facts fact.id with kept | marked
    · exact ⟨row, kept.trans held, told, readable, same⟩
    refine ⟨publish row, by rw [marked, held]; rfl, told, readable, ?_⟩
    rw [same]
    rfl
  facts id row held := by
    rcases facts id with kept | marked
    · exact stores.facts id row (kept ▸ held)
    rw [marked] at held
    obtain ⟨earlier, found, _⟩ := Option.map_eq_some_iff.mp held
    exact stores.facts id earlier found
  distinct := stores.distinct
  named := stores.named

/-- What a transaction of the store comes to: entries of its call, or nothing. -/
structure SignalOutcome (host : PostgresHost) (known : Set String) (step : PostgresOperation)
    (result : Except Failure (Option Answer)) (before after : SignalRows) : Prop where
  failed : ∀ failure, result = .error failure → after = before
  enters : ∀ ledger, Stores host known before ledger → ∃ later, Stores host known after later ∧
    match step with
    | .mutate operation => operation.EntersAll host.toHost ledger later
    | .acknowledge _ => later = ledger
  answered : ∀ operation answer, step = .mutate operation → result = .ok (some answer) →
    operation.Answered host.toHost (signalsOf host after) answer

theorem SignalOutcome.keeps {origin : SignalRows} {step : PostgresOperation} {res : Except Failure (Option Answer)}
    (out : SignalOutcome host known step res before after)
    (taken : ∀ op, step = .mutate op → op.issues ⊆ known ∧ watch.takes op (signalsOf host origin))
    (began : Kept watch origin) (since : Since watch origin before) (kept : Kept watch before) : Kept watch after ∧
      Since watch before after := by
  obtain ⟨first, opened⟩ := began.1
  obtain ⟨ledger, stores, passed⟩ := since first opened
  obtain ⟨later, stored, entered⟩ := out.enters ledger stores
  have orderly := Ledger.entries_orderly opened.orderly passed
  cases step with
  | acknowledge ids =>
    refine ⟨⟨⟨later, stored⟩, ?_⟩, fun ledger stores => ?_⟩
    · rw [← signals_eq stored, entered, signals_eq stores]
      exact kept.2
    · obtain ⟨later, stored, same⟩ := out.enters ledger stores
      exact ⟨later, stored, same ▸ .refl⟩
  | mutate op =>
    refine ⟨⟨⟨later, stored⟩, ?_⟩, fun ledger stores => ?_⟩
    · rw [← signals_eq stored]
      obtain ⟨expected, taken⟩ := taken op rfl
      have holds := kept.2
      rw [← signals_eq opened] at taken
      rw [← signals_eq stores] at holds
      exact watch.keeps_all expected taken orderly.2 orderly.1 holds entered
    · obtain ⟨later, stored, entered⟩ := out.enters ledger stores
      exact ⟨later, stored, Operation.entries_of_entersAll entered⟩

private theorem outcome_rolledBack (step : PostgresOperation) (err : Failure) :
    SignalOutcome host known step (.error err) rows rows := by
  refine ⟨fun _ _ => rfl, fun ledger stores => ⟨ledger, stores, ?_⟩, fun _ _ _ given => nomatch given⟩
  cases step with
  | mutate => exact .refl
  | acknowledge ids => rfl

private theorem closes_of_committed {step : PostgresOperation} {value : Option Answer}
    (committed : ∀ rows, Since watch seen rows → Kept watch rows → session.Holds rows →
      SignalOutcome host known step (.ok value) rows (session.view rows)) :
    (signalAccord host known watch).Closes sqlFailure (SignalOutcome host known step) (.ok value) seen session := by
  intro rows since kept holds
  split
  · rename_i same _
    cases same
    exact committed rows since kept holds
  · exact outcome_rolledBack _ _
  · exact outcome_rolledBack _ _

theorem mutate_upholds (distinct : Collisionless host.toHost known) (expected : op.issues ⊆ known) :
    Upholds (signalAccord host known watch) ((signalAccord host known watch).Closes sqlFailure
      (SignalOutcome host known (.mutate op))) seen .start
      (PostgresOperation.body host (.mutate op)) := by
  refine upholds_bind.mpr (Upholds.weaken ?_ (operation_upholds distinct expected))
  intro res seen session ended
  cases res with
  | error => exact fun rows _ _ _ => outcome_rolledBack _ _
  | ok answer => exact closes_of_committed fun rows since kept holds =>
      ⟨nofun, ended.1 rows since kept holds, fun op answer same given => by
        cases same
        cases given
        exact ended.2 rows since kept holds⟩

private def published (rows : SignalRows) : SignalRows
  | .fact id => (rows (.fact id)).map publish
  | key => rows key

theorem acknowledge_upholds {ids : List String} :
    Upholds (signalAccord host known watch) ((signalAccord host known watch).Closes sqlFailure
      (SignalOutcome host known (.acknowledge ids))) seen .start
      (PostgresOperation.body host (.acknowledge ids)) := by
  unfold PostgresOperation.body Postgres.acknowledgeOutbox
  dsimp only
  split
  · exact closes_of_committed fun rows _ _ _ => ⟨nofun,
      fun ledger stores => ⟨ledger, stores, rfl⟩, fun _ _ other => nomatch other⟩
  refine upholds_run (fun _ _ rows _ _ _ => outcome_rolledBack _ _) fun rows choice reply writes _ _ _ acted => ?_
  have marks := (Prod.mk.inj (Option.some.inj acted)).2
  refine closes_of_committed fun later _ _ holds => ⟨nofun, fun ledger stores =>
    ⟨ledger, ?_, rfl⟩, fun _ _ other => nomatch other⟩
  have marked : ∀ write ∈ writes, write.2 = published later write.1 := by
    intro write member
    have locked := view_locked holds write.1 (List.mem_map_of_mem member)
    rw [← marks] at member
    obtain ⟨id, _, rfl⟩ := List.mem_map.mp member
    exact congrArg (Option.map publish) locked.symm
  rw [view_take]
  refine stores.published (fun key other => ?_) fun id => ?_
  · rw [overwrite_from marked]
    cases key with
    | fact id => exact absurd rfl (other id)
    | signal | occurrence | resolution | event => exact ite_self _
  · rw [overwrite_from marked]
    split
    · exact Or.inr rfl
    · exact Or.inl rfl

def signalRegime (host : PostgresHost) (known : Set String) (distinct : Collisionless host.toHost known)
    (watch : Watch host.toHost known) : Regime (signalDialect host) sqlFailure (PostgresOperation.body host) where
  toAccord := signalAccord host known watch
  admits step origin := ∀ operation, step = .mutate operation →
    operation.issues ⊆ known ∧ watch.takes operation (signalsOf host origin)
  outcome step _ := SignalOutcome host known step
  keeps admitted began since kept outcome :=
    outcome.keeps admitted began since kept
  sound step origin admitted _ := by
    cases step with
    | mutate operation => exact mutate_upholds distinct (admitted operation rfl).1
    | acknowledge ids => exact acknowledge_upholds

end Applik8s.Signals
