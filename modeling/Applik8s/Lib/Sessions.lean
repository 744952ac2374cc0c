import Mathlib.Logic.Function.Basic
import Applik8s.Lib.Program
import Applik8s.Lib.Run

/-! Transactions of a relational database, interleaved statement by statement.

Rows are addressed by key. A statement sees the latest committed rows under its session's
own writes. It locks every row it writes or selects for update, waits while another
session holds one, and keeps its locks until the session ends or rolls back to a savepoint
before them. A statement may raise an error, which fails the session until it rolls back to
a savepoint. A commit publishes all writes at once; a session may be lost at any point.

`Upholds` says what a program does whatever other sessions commit between its statements:
it may rely on the rows it holds and on a relation that every commit follows. A `Regime`
carries this to every run. -/
namespace Applik8s.Lib
open List Option
open Function (update update_of_ne update_self update_apply)

/-- What the statements of an interface do to the rows. `Choice` is what the database
decides by itself: which rows it skips, which numbers it draws. A statement answers
with its reply and the rows it locks, each with what it becomes, or with an error. -/
structure Dialect (I : Interface) where
  Key : Type
  [decidableKey : DecidableEq Key]
  Row : Key → Type
  Choice : Type
  act : (request : I.Call) → Choice → ((key : Key) → Option (Row key)) →
    Option (I.Reply request × List ((key : Key) × Option (Row key)))

attribute [instance] Dialect.decidableKey

variable {I : Interface} (dialect : Dialect I)

abbrev Rows := (key : dialect.Key) → Option (dialect.Row key)
abbrev Writes := List ((key : dialect.Key) × Option (dialect.Row key))

def overwrite {dialect : Dialect I} (rows : Rows dialect) (writes : Writes dialect) : Rows dialect :=
  writes.foldl (fun rows write => update rows write.1 write.2) rows

def touched {dialect : Dialect I} (writes : Writes dialect) : List dialect.Key := writes.map Sigma.fst

/-- The savepoint statements; all savepoints of a program have one name, so each means
the latest. -/
inductive Control where
  | savepoint | rollbackTo | release

/-- The statements of a session; an error is the answer `none`. -/
abbrev Sql (I : Interface) : Interface where
  Call := I.Call ⊕ Control
  Reply
    | .inl request => Option (I.Reply request)
    | .inr _ => Option Unit

/-- A row a session holds: as it is committed, and as the session has it. -/
structure Held (key : dialect.Key) where
  committed : Option (dialect.Row key)
  current : Option (dialect.Row key)

abbrev Holdings := (key : dialect.Key) → Option (Held dialect key)

structure Session where
  held : Holdings dialect
  /-- The holdings at the savepoints still open, the latest first. -/
  saved : List (Holdings dialect)
  failed : Bool

variable {dialect} {writes : Writes dialect}

theorem overwrite_untouched (free : key ∉ touched writes) (rows : Rows dialect)
    : overwrite rows writes key = rows key := by
  induction writes generalizing rows with
  | nil => rfl
  | cons write rest ih =>
    simp only [touched, map_cons, mem_cons, not_or] at free
    exact (ih free.2 _).trans (update_of_ne free.1 _ _)

theorem overwrite_touched (member : key ∈ touched writes) (rows others : Rows dialect)
    : overwrite rows writes key = overwrite others writes key := by
  induction writes generalizing rows others with
  | nil => cases member
  | cons write rest ih =>
    by_cases later : key ∈ touched rest
    · exact ih later _ _
    have own : key = write.1 := (mem_cons.mp member).resolve_right later
    subst own
    exact (overwrite_untouched later _).trans ((update_self ..).trans
      ((overwrite_untouched later _).trans (update_self ..)).symm)

@[simp] theorem overwrite_nil (rows : Rows dialect) : overwrite rows [] = rows := rfl

@[simp] theorem overwrite_cons (rows : Rows dialect) (write : (key : dialect.Key) × Option (dialect.Row key))
    (writes : Writes dialect) :
    overwrite rows (write :: writes) = overwrite (update rows write.1 write.2) writes := rfl

theorem overwrite_from {shown : Rows dialect} (same : ∀ write ∈ writes, write.2 = shown write.1) (key : dialect.Key) :
    overwrite rows writes key = if key ∈ touched writes then shown key else rows key := by
  by_cases member : key ∈ touched writes
  · rw [if_pos member]
    induction writes generalizing rows with
    | nil => cases member
    | cons write rest ih =>
      by_cases later : key ∈ touched rest
      · exact ih (fun other member => same other (mem_cons_of_mem _ member)) later
      have own : key = write.1 := (mem_cons.mp member).resolve_right later
      subst own
      rw [overwrite_cons, overwrite_untouched later, update_self]
      exact same write mem_cons_self
  · rw [if_neg member, overwrite_untouched member]

theorem overwrite_same (same : ∀ write ∈ writes, write.2 = rows write.1) : overwrite rows writes = rows := by
  funext key
  rw [overwrite_from same, ite_self]

namespace Session

def start : Session dialect := ⟨fun _ => none, [], false⟩

def view (session : Session dialect) (rows : Rows dialect) : Rows dialect := fun key =>
  (session.held key).elim (rows key) Held.current

/-- The holdings after rows were locked and left as a statement has them. -/
def lock (session : Session dialect) (rows : Rows dialect) (writes : Writes dialect) : Holdings dialect :=
  fun key =>
    if key ∈ touched writes then
      some ⟨(session.held key).elim (rows key) Held.committed, overwrite (session.view rows) writes key⟩
    else session.held key

def take (session : Session dialect) (rows : Rows dialect) (writes : Writes dialect) : Session dialect :=
  { session with held := session.lock rows writes }

def fail (session : Session dialect) : Session dialect := { session with failed := true }

/-- One statement. Without a choice of the database it comes to an error: a deadlock, a
serialization failure. -/
def execute (session : Session dialect) (rows : Rows dialect) (choice : Option dialect.Choice) :
    (request : (Sql I).Call) → (Sql I).Reply request × Session dialect
  | .inl request =>
    match session.failed, choice with
    | false, some choice =>
      match dialect.act request choice (session.view rows) with
      | some (reply, writes) => (some reply, session.take rows writes)
      | none => (none, session.fail)
    | _, _ => (none, session.fail)
  | .inr .savepoint =>
    if session.failed then (none, session)
    else (some (), { session with saved := session.held :: session.saved })
  | .inr .rollbackTo =>
    match session.saved with
    | held :: _ => (some (), { session with held, failed := false })
    | [] => (none, session.fail)
  | .inr .release =>
    match session.failed, session.saved with
    | false, _ :: saved => (some (), { session with saved })
    | _, _ => (none, session.fail)

def waits (session : Session dialect) (rows : Rows dialect) (choice : Option dialect.Choice) :
    (Sql I).Call → List dialect.Key
  | .inl request =>
    match session.failed, choice with
    | false, some choice =>
      match dialect.act request choice (session.view rows) with
      | some (_, writes) => touched writes
      | none => []
    | _, _ => []
  | .inr _ => []

/-- The rows held are committed as the session has seen them. -/
def Holds (session : Session dialect) (rows : Rows dialect) : Prop :=
  ∀ key row, session.held key = some row → rows key = row.committed

@[simp] theorem holds_start (rows : Rows dialect) : (start : Session dialect).Holds rows := by
  intro key row held
  cases held

variable {session : Session dialect}

theorem view_take : (session.take rows writes).view later = overwrite (session.view later) writes := by
  funext key
  unfold view take lock
  by_cases member : key ∈ touched writes
  · simpa [member] using overwrite_touched member _ _
  · simp [member, overwrite_untouched member, view]

theorem take_committed (held : (session.take rows writes).held key = some row) :
    (∃ earlier, session.held key = some earlier ∧ row.committed = earlier.committed) ∨
      (session.held key = none ∧ key ∈ touched writes ∧ row.committed = rows key) := by
  unfold take lock at held
  by_cases member : key ∈ touched writes
  · simp only [member, if_true, some.injEq] at held
    subst held
    cases before : session.held key with
    | some earlier => exact Or.inl ⟨earlier, rfl, rfl⟩
    | none => exact Or.inr ⟨rfl, member, rfl⟩
  · simp only [member, if_false] at held
    exact Or.inl ⟨row, held, rfl⟩

theorem view_locked (holds : (session.take rows writes).Holds later) (key : dialect.Key)
    (member : key ∈ touched writes) : session.view later key = session.view rows key := by
  cases held : session.held key with
  | some row => simp [view, held]
  | none =>
    have still := holds key ⟨rows key, overwrite (session.view rows) writes key⟩
      (by simp [Session.take, lock, member, held])
    simp [view, held, still]

@[simp] theorem take_nil : session.take rows [] = session := by
  have same : session.lock rows [] = session.held := by
    funext key
    simp [lock, touched]
  simp [take, same]

theorem Holds.of_take (holds : (session.take rows writes).Holds later) : session.Holds later := by
  intro key row held
  by_cases member : key ∈ touched writes
  · exact holds key ⟨row.committed, overwrite (session.view rows) writes key⟩
      (by simp [Session.take, lock, member, held])
  · exact holds key row (by simp [Session.take, lock, member, held])

theorem view_free (free : session.held key = none) (rows : Rows dialect) : session.view rows key = rows key := by
  simp [view, free]

end Session

/-! ### What a program does in a session -/

section
variable {ε α β : Type}

/-- What all transactions of a system agree on: an invariant of the committed rows, and a
preorder that every commit follows. -/
structure Accord (dialect : Dialect I) where
  invariant : Rows dialect → Prop
  related : Rows dialect → Rows dialect → Prop
  refl : ∀ rows, related rows rows
  trans : ∀ {first second third}, related first second → related second third → related first third

/-- Whatever is committed between its statements, the program ends as `post` has it.
`seen` are the rows at its last statement. -/
def Upholds (accord : Accord dialect) (post : Except ε α → Rows dialect → Session dialect → Prop) :
    Rows dialect → Session dialect → Program (Sql I) ε α → Prop
  | seen, session, .done value => post (.ok value) seen session
  | seen, session, .throw error => post (.error error) seen session
  | seen, session, .call request next =>
    ∀ rows choice, accord.related seen rows → accord.invariant rows → session.Holds rows →
      Upholds accord post rows (session.execute rows choice request).2 (next (session.execute rows choice request).1)

variable {accord : Accord dialect} {seen : Rows dialect} {session : Session dialect}

theorem upholds_bind {prog : Program (Sql I) ε β} :
    Upholds accord post seen session (prog >>= rest) ↔ Upholds accord (fun res seen session => match res with
        | .ok value => Upholds accord post seen session (rest value)
        | .error error => post (.error error) seen session) seen session prog := by
  induction prog generalizing seen session with
  | done value => rfl
  | throw error => rfl
  | call _ _ ih => exact forall₅_congr fun rows choice _ _ _ => ih _

@[simp] theorem upholds_check :
    Upholds accord post seen session (.check out) ↔ post out seen session := by
  cases out <;> rfl

theorem Upholds.weaken (implied : ∀ res seen session, post res seen session → laxer res seen session)
    (upholds : Upholds accord post seen session prog) : Upholds accord laxer seen session prog := by
  induction prog generalizing seen session with
  | done value => exact implied _ _ _ upholds
  | throw error => exact implied _ _ _ upholds
  | call _ _ ih => exact fun rows choice since kept holds => ih _ (upholds rows choice since kept holds)

theorem upholds_of_always (always : ∀ res seen session, post res seen session)
    : Upholds accord post seen session prog := by
  induction prog generalizing seen session with
  | done value => exact always _ _ _
  | throw error => exact always _ _ _
  | call _ _ ih => exact fun rows choice _ _ _ => ih _

theorem Upholds.and (upholds : Upholds accord post seen session program)
    (further : Upholds accord also seen session program) :
    Upholds accord (fun res seen session => post res seen session ∧ also res seen session) seen session
      program := by
  induction program generalizing seen session with
  | done value => exact ⟨upholds, further⟩
  | throw error => exact ⟨upholds, further⟩
  | call _ _ ih =>
    exact fun rows choice since kept holds =>
      ih _ (upholds rows choice since kept holds) (further rows choice since kept holds)

theorem upholds_collect {γ : Type} {items : List β} {iteration : β → Program (Sql I) ε γ}
    (holds : Rows dialect → Session dialect → Prop)
    (failing : ε → Rows dialect → Session dialect → Prop) (here : holds seen session)
    (each : ∀ item ∈ items, ∀ seen session, holds seen session →
      Upholds accord (fun res seen session => match res with
        | .ok _ => holds seen session
        | .error error => failing error seen session) seen session (iteration item)) :
    Upholds accord (fun res seen session => match res with
      | .ok _ => holds seen session
      | .error error => failing error seen session) seen session (Program.collect items iteration) := by
  induction items generalizing seen session with
  | nil => exact here
  | cons item rest ih =>
    refine upholds_bind.mpr (Upholds.weaken (fun res seen session ended => ?_)
      (each item mem_cons_self seen session here))
    cases res with
    | error error => exact ended
    | ok value =>
      refine upholds_bind.mpr (Upholds.weaken (fun res seen session ended => ?_)
        (ih ended fun item member => each item (mem_cons_of_mem _ member)))
      cases res with
      | ok values => exact ended
      | error error => exact ended

/-- A statement of the interface, whose error the program does not handle. -/
def run (broken : ε) (request : I.Call) : Program (Sql I) ε (I.Reply request) :=
  .call (.inl request) fun
    | some reply => .done reply
    | none => .throw broken

theorem upholds_run {post : Except ε α → Rows dialect → Session dialect → Prop}
    (failing : ∀ seen session, post (.error broken) seen session)
    (going : ∀ rows choice reply writes, accord.related seen rows → accord.invariant rows → session.Holds rows → dialect.act req choice (session.view rows) = some (reply, writes) → Upholds accord post rows (session.take rows writes) (rest reply))
    : Upholds accord post seen session (run broken req >>= rest) := by
  refine upholds_bind.mpr fun rows choice since kept holds => ?_
  unfold Session.execute
  dsimp only
  split
  · rename_i choice _
    cases acted : dialect.act req choice (session.view rows) with
    | none => exact failing _ _
    | some answer =>
      obtain ⟨reply, writes⟩ := answer
      exact going rows choice reply writes since kept holds acted
  · exact failing _ _

/-- How a transaction closes: it commits what it has written, or it is rolled back. A
failed session cannot commit. -/
def Accord.Closes (accord : Accord dialect) (lost : ε)
    (outcome : Except ε α → Rows dialect → Rows dialect → Prop) (result : Except ε α)
    (seen : Rows dialect) (session : Session dialect) : Prop :=
  ∀ rows, accord.related seen rows → accord.invariant rows → session.Holds rows →
    match result, session.failed with
    | .ok value, false => outcome (.ok value) rows (session.view rows)
    | .ok _, true => outcome (.error lost) rows rows
    | .error error, _ => outcome (.error error) rows rows
end

section
variable {ε α Op : Type}

structure Client (dialect : Dialect I) (ε α Op : Type) where
  operation : Op
  /-- The rows committed when it began. -/
  origin : Rows dialect
  program : Program (Sql I) ε α
  session : Session dialect

/-- A transaction that has come to its end, with the rows committed before and after. -/
structure Closed (dialect : Dialect I) (ε α Op : Type) where
  operation : Op
  origin : Rows dialect
  result : Except ε α
  before : Rows dialect
  after : Rows dialect

structure Database (dialect : Dialect I) (ε α Op : Type) where
  rows : Rows dialect
  clients : Nat → Option (Client dialect ε α Op) := fun _ => none
  /-- Who holds a row. -/
  owner : dialect.Key → Option Nat := fun _ => none
  /-- What has ended, the latest first. -/
  closed : List (Closed dialect ε α Op) := []

inductive DatabaseEvent (dialect : Dialect I) (Op : Type) where
  | begin (client : Nat) (operation : Op)
  /-- The next statement of a client, or its end. -/
  | step (client : Nat) (choice : Option dialect.Choice)
  /-- The connection of a client is lost. -/
  | lose (client : Nat)

namespace Database

def owners (owner : dialect.Key → Option Nat) (client : Nat) (session : Session dialect) :
    dialect.Key → Option Nat := fun key =>
  if (session.held key).isSome then some client
  else if owner key = some client then none
  else owner key

def goOn (database : Database dialect ε α Op) (client : Nat) (running : Client dialect ε α Op) :
    Database dialect ε α Op :=
  { database with
    clients := update database.clients client (some running)
    owner := owners database.owner client running.session }

def leave (database : Database dialect ε α Op) (client : Nat) : Database dialect ε α Op :=
  { database with
    clients := update database.clients client none
    owner := owners database.owner client Session.start }

/-- A client ends with a result, and with these rows committed. -/
def close (database : Database dialect ε α Op) (client : Nat) (running : Client dialect ε α Op)
    (result : Except ε α) (after : Rows dialect) : Database dialect ε α Op :=
  { database.leave client with
    rows := after
    closed := ⟨running.operation, running.origin, result, database.rows, after⟩ :: database.closed }

def advance (lost : ε) (body : Op → Program (Sql I) ε α) (database : Database dialect ε α Op) :
    DatabaseEvent dialect Op → Database dialect ε α Op
  | .begin client operation =>
    match database.clients client with
    | some _ => database
    | none => database.goOn client ⟨operation, database.rows, body operation, .start⟩
  | .lose client => database.leave client
  | .step client choice =>
    match database.clients client with
    | none => database
    | some running =>
      match running.program with
      | .done value =>
        if running.session.failed then database.close client running (.error lost) database.rows
        else database.close client running (.ok value) (running.session.view database.rows)
      | .throw error => database.close client running (.error error) database.rows
      | .call request next =>
        if ∀ key ∈ running.session.waits database.rows choice request,
            database.owner key = none ∨ database.owner key = some client then
          let answer := running.session.execute database.rows choice request
          database.goOn client { running with program := next answer.1, session := answer.2 }
        else database

end Database

/-- Which transactions begin where, what the system agrees on, what a transaction comes
to between the rows it meets and those it leaves, and why that keeps the accord. -/
structure Regime (dialect : Dialect I) (lost : ε) (body : Op → Program (Sql I) ε α)
    extends Accord dialect where
  admits : Op → Rows dialect → Prop
  outcome : Op → Rows dialect → Except ε α → Rows dialect → Rows dialect → Prop
  keeps : ∀ {operation origin result before after}, admits operation origin → invariant origin →
    related origin before → invariant before → outcome operation origin result before after →
      invariant after ∧ related before after
  sound : ∀ operation origin, admits operation origin → invariant origin →
    Upholds toAccord (toAccord.Closes lost (outcome operation origin)) origin .start (body operation)

/-- A regime under which transactions come to something more. -/
def Regime.also {lost : ε} {body : Op → Program (Sql I) ε α} (regime : Regime dialect lost body)
    (further : Op → Rows dialect → Except ε α → Rows dialect → Rows dialect → Prop)
    (sound : ∀ operation origin, regime.admits operation origin → regime.invariant origin →
      Upholds regime.toAccord (regime.Closes lost (further operation origin)) origin .start (body operation)) :
    Regime dialect lost body where
  toAccord := regime.toAccord
  admits := regime.admits
  outcome operation origin result before after :=
    regime.outcome operation origin result before after ∧ further operation origin result before after
  keeps admitted began since kept outcome := regime.keeps admitted began since kept outcome.1
  sound operation origin admitted began := by
    refine Upholds.weaken (fun result seen session both rows since kept holds => ?_)
      ((regime.sound operation origin admitted began).and (sound operation origin admitted began))
    have one := both.1 rows since kept holds
    have two := both.2 rows since kept holds
    cases result with
    | error error => exact ⟨one, two⟩
    | ok value => cases failed : session.failed <;> rw [failed] at one two <;> exact ⟨one, two⟩

end

/-- One set of holdings is taken from another, and from the same rows. -/
def Within (earlier later : Holdings dialect) : Prop :=
  ∀ key row, earlier key = some row → ∃ further, later key = some further ∧ further.committed = row.committed

/-- Each savepoint was taken within what is held after it. -/
def Nested : Holdings dialect → List (Holdings dialect) → Prop
  | _, [] => True
  | held, earlier :: saved => Within earlier held ∧ Nested earlier saved

theorem Within.refl (held : Holdings dialect) : Within held held :=
  fun _ row here => ⟨row, here, rfl⟩

theorem Within.trans (one : Within first second) (two : Within second third) : Within first third := by
  intro key row here
  obtain ⟨further, found, same⟩ := one key row here
  obtain ⟨last, held, also⟩ := two key further found
  exact ⟨last, held, also.trans same⟩

theorem Nested.widen (nested : Nested held saved) (within : Within held wider) : Nested wider saved := by
  cases saved with
  | nil => trivial
  | cons => exact ⟨nested.1.trans within, nested.2⟩

namespace Session
variable {session : Session dialect} {choice : Option dialect.Choice}

theorem within_take : Within session.held (session.take rows writes).held := by
  intro key row here
  by_cases member : key ∈ touched writes
  · exact ⟨⟨row.committed, overwrite (session.view rows) writes key⟩, by simp [take, lock, member, here], rfl⟩
  · exact ⟨row, by simp [take, lock, member, here], rfl⟩

theorem execute_held (nested : Nested session.held session.saved) (req : (Sql I).Call) :
    ∀ key row, (session.execute rows choice req).2.held key = some row →
      (∃ earlier, session.held key = some earlier ∧ row.committed = earlier.committed) ∨
        (key ∈ session.waits rows choice req ∧ row.committed = rows key) := by
  intro key row held
  unfold execute at held
  unfold waits
  rcases req with _ | control
  · dsimp only at held ⊢
    split at held
    · split at held
      · rcases take_committed held with before | ⟨_, locked, same⟩
        · exact Or.inl before
        · exact Or.inr ⟨locked, same⟩
      · exact Or.inl ⟨row, held, rfl⟩
    · exact Or.inl ⟨row, held, rfl⟩
  cases control with
  | savepoint =>
    dsimp only at held
    split at held <;> exact Or.inl ⟨row, held, rfl⟩
  | rollbackTo =>
    dsimp only at held
    split at held
    · rename_i earlier saved opened
      rw [opened] at nested
      obtain ⟨further, found, same⟩ := nested.1 key row held
      exact Or.inl ⟨further, found, same.symm⟩
    · exact Or.inl ⟨row, held, rfl⟩
  | release =>
    dsimp only at held
    split at held <;> exact Or.inl ⟨row, held, rfl⟩

theorem execute_nested (nested : Nested session.held session.saved) (req : (Sql I).Call) :
    Nested (session.execute rows choice req).2.held (session.execute rows choice req).2.saved := by
  unfold execute
  rcases req with _ | control
  · dsimp only
    split
    · split
      · exact nested.widen within_take
      · exact nested
    · exact nested
  cases control with
  | savepoint =>
    dsimp only
    split
    · exact nested
    · exact ⟨.refl _, nested⟩
  | rollbackTo =>
    dsimp only
    split
    · rename_i earlier saved opened
      rw [opened] at nested ⊢
      exact ⟨.refl _, nested.2⟩
    · exact nested
  | release =>
    dsimp only
    split
    · rename_i earlier saved failed opened
      rw [opened] at nested
      exact nested.2.widen nested.1
    · exact nested

theorem Holds.execute (holds : session.Holds rows) (nested : Nested session.held session.saved) (req : (Sql I).Call)
    : (session.execute rows choice req).2.Holds rows := by
  intro key row held
  rcases execute_held nested req key row held with ⟨earlier, before, same⟩ | ⟨_, same⟩
  · rw [same]
    exact holds key earlier before
  · exact same.symm

end Session

section
variable {ε α Op : Type} {lost : ε} {body : Op → Program (Sql I) ε α}

structure Regime.Underway (regime : Regime dialect lost body) (rows : Rows dialect)
    (running : Client dialect ε α Op) : Prop where
  admitted : regime.admits running.operation running.origin
  began : regime.invariant running.origin
  since : regime.related running.origin rows
  holds : running.session.Holds rows
  nested : Nested running.session.held running.session.saved
  upholds : ∃ seen, regime.related seen rows ∧
    Upholds regime.toAccord (regime.Closes lost (regime.outcome running.operation running.origin)) seen
      running.session running.program

structure Regime.Came (regime : Regime dialect lost body) (closed : Closed dialect ε α Op) : Prop where
  admitted : regime.admits closed.operation closed.origin
  began : regime.invariant closed.origin
  since : regime.related closed.origin closed.before
  invariant : regime.invariant closed.before
  outcome : regime.outcome closed.operation closed.origin closed.result closed.before closed.after

structure Regime.Kept (regime : Regime dialect lost body) (database : Database dialect ε α Op) : Prop where
  invariant : regime.invariant database.rows
  owners : ∀ key client, database.owner key = some client ↔
    ∃ running, database.clients client = some running ∧ (running.session.held key).isSome
  clients : ∀ client running, database.clients client = some running → regime.Underway database.rows running
  closed : ∀ entry ∈ database.closed, regime.Came entry

variable (regime : Regime dialect lost body)

theorem Regime.kept_idle (invariant : regime.invariant rows) : regime.Kept { rows } :=
  ⟨invariant, by simp, by simp, by simp⟩

variable {regime} {client : Nat}

private theorem owners_update (next : Option (Client dialect ε α Op)) (session : Session dialect)
    (kept : regime.Kept db)
    (shape : ∀ key, (session.held key).isSome ↔ ∃ running, next = some running ∧ (running.session.held key).isSome)
    (free : ∀ key, (session.held key).isSome → db.owner key = none ∨ db.owner key = some client) :
    ∀ key other, Database.owners db.owner client session key = some other ↔
      ∃ running, update db.clients client next other = some running ∧
        (running.session.held key).isSome := by
  intro key other
  have before := kept.owners key other
  by_cases same : other = client
  · subst same
    rw [update_self, ← shape key]
    unfold Database.owners
    by_cases holding : (session.held key).isSome
    · simp [holding]
    · by_cases owned : db.owner key = some other <;> simp [holding, owned]
  rw [update_of_ne same, ← before]
  unfold Database.owners
  by_cases holding : (session.held key).isSome
  · rcases free key holding with vacant | own
    · simp [holding, vacant, Ne.symm same]
    · simp [holding, own, Ne.symm same]
  · by_cases owned : db.owner key = some client
    · simp [holding, owned, Ne.symm same]
    · simp [holding, owned]

theorem Regime.Kept.goOn (kept : regime.Kept db) (underway : regime.Underway db.rows running)
    (free : ∀ key, (running.session.held key).isSome → db.owner key = none ∨ db.owner key = some client)
    : regime.Kept (db.goOn client running) := by
  refine ⟨kept.invariant, owners_update (some running) running.session kept (by simp) free, ?_, kept.closed⟩
  intro other found present
  unfold Database.goOn at present
  dsimp only at present
  rw [update_apply] at present
  split at present
  · cases present
    exact underway
  · exact kept.clients other found present

theorem Regime.Kept.leave (kept : regime.Kept db) (client : Nat) : regime.Kept (db.leave client) := by
  unfold Database.leave
  refine ⟨kept.invariant, owners_update none .start kept ?_ ?_, ?_, kept.closed⟩
  · simp [Session.start]
  · simp [Session.start]
  intro other found present
  dsimp only at present
  rw [update_apply] at present
  split at present
  · cases present
  · exact kept.clients other found present

theorem Regime.Kept.close (kept : regime.Kept db) (present : db.clients client = some running)
    (confined : ∀ key, running.session.held key = none → final key = db.rows key)
    (out : regime.outcome running.operation running.origin res db.rows final) :
    regime.Kept (db.close client running res final) ∧ regime.related db.rows final := by
  have underway := kept.clients client running present
  obtain ⟨invariant, follows⟩ := regime.keeps underway.admitted underway.began underway.since kept.invariant out
  have left := kept.leave client
  refine ⟨⟨invariant, left.owners, ?_, ?_⟩, follows⟩
  · intro other found there
    have before := left.clients other found there
    obtain ⟨seen, since, upholds⟩ := before.upholds
    refine ⟨before.admitted, before.began, regime.trans before.since follows, ?_, before.nested,
      seen, regime.trans since follows, upholds⟩
    -- what another client holds, this one does not
    intro key row held
    have apart : running.session.held key = none := by
      have distinct : other ≠ client := by
        rintro rfl
        simp [Database.close, Database.leave] at there
      have still : db.clients other = some found := by
        simpa [Database.close, Database.leave, update_of_ne distinct] using there
      have theirs := (kept.owners key other).mpr ⟨found, still, by simp [held]⟩
      cases own : running.session.held key with
      | none => rfl
      | some row =>
        have ours := (kept.owners key client).mpr ⟨running, present, by simp [own]⟩
        exact absurd (some.inj (theirs.symm.trans ours)) distinct
    exact (confined key apart).trans (before.holds key row held)
  · intro entry member
    rcases mem_cons.mp member with rfl | earlier
    · exact ⟨underway.admitted, underway.began, underway.since, kept.invariant, out⟩
    · exact kept.closed entry earlier

/-- A transaction begins only where the regime admits it. -/
def Regime.Admits (regime : Regime dialect lost body) (database : Database dialect ε α Op) :
    DatabaseEvent dialect Op → Prop
  | .begin client operation => database.clients client = none → regime.admits operation database.rows
  | _ => True

theorem Regime.advance_kept (kept : regime.Kept db) (admitted : regime.Admits db event)
    : regime.Kept (db.advance lost body event) ∧
      regime.related db.rows (db.advance lost body event).rows := by
  cases event with
  | lose client => exact ⟨kept.leave client, regime.refl _⟩
  | begin client op =>
    unfold Database.advance
    dsimp only
    cases vacant : db.clients client with
    | some => exact ⟨kept, regime.refl _⟩
    | none =>
      have here := admitted vacant
      have begun : regime.Underway db.rows ⟨op, db.rows, body op, .start⟩ :=
        ⟨here, kept.invariant, regime.refl _, Session.holds_start _, trivial, db.rows, regime.refl _,
          regime.sound op db.rows here kept.invariant⟩
      refine ⟨kept.goOn begun fun key holding => ?_, regime.refl _⟩
      simp [Session.start] at holding
  | step client choice =>
    unfold Database.advance
    dsimp only
    cases present : db.clients client with
    | none => exact ⟨kept, regime.refl _⟩
    | some running =>
      have underway := kept.clients client running present
      obtain ⟨_, since, upholds⟩ := underway.upholds
      dsimp only
      split
      · rename_i value ended
        rw [ended] at upholds
        have closes := upholds db.rows since kept.invariant underway.holds
        split
        · rename_i failed
          rw [failed] at closes
          exact kept.close present (fun _ _ => rfl) closes
        rename_i sane
        rw [Bool.not_eq_true] at sane
        rw [sane] at closes
        exact kept.close present (fun key free => Session.view_free free _) closes
      · rename_i error ended
        rw [ended] at upholds
        have closes := upholds db.rows since kept.invariant underway.holds
        exact kept.close present (fun _ _ => rfl) closes
      · rename_i req next under
        rw [under] at upholds
        split
        · rename_i free
          refine ⟨kept.goOn ⟨underway.admitted, underway.began, underway.since,
            underway.holds.execute underway.nested req,
            Session.execute_nested underway.nested req, db.rows, regime.refl _,
            upholds db.rows choice since kept.invariant underway.holds⟩ ?_, regime.refl _⟩
          intro key holding
          obtain ⟨row, held⟩ := isSome_iff_exists.mp holding
          rcases Session.execute_held underway.nested req key row held with
            ⟨earlier, before, _⟩ | ⟨waited, _⟩
          · exact Or.inr ((kept.owners key client).mpr ⟨running, present, by simp [before]⟩)
          · exact free key waited
        · exact ⟨kept, regime.refl _⟩

/-- A run of the database in which every transaction begins where it is admitted. -/
def Regime.Observed (regime : Regime dialect lost body) (database : Database dialect ε α Op)
    (events : List (DatabaseEvent dialect Op)) : Prop :=
  EachStep (Database.advance lost body) regime.Admits database events

theorem Regime.run_kept (kept : regime.Kept db) (observed : regime.Observed db events) :
    regime.Kept (runFrom (Database.advance lost body) db events) ∧
      regime.related db.rows (runFrom (Database.advance lost body) db events).rows := by
  induction events generalizing db with
  | nil => exact ⟨kept, regime.refl _⟩
  | cons event rest ih =>
    obtain ⟨next, follows⟩ := regime.advance_kept kept observed.1
    obtain ⟨last, further⟩ := ih next observed.2
    exact ⟨last, regime.trans follows further⟩

end
end Applik8s.Lib
