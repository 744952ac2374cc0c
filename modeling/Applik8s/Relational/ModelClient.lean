import Mathlib.Data.List.Permutation
import Applik8s.Lib.Json
import Applik8s.Lib.Record
import Applik8s.Lib.Run

/-! The client of a model in PostgreSQL, `packages/applik8s/src/transactional-database-postgres-runtime.ts`. A patch reads
the object and then writes all of it, whatever became of it in between, and a page is cut out of an order that need not
separate the rows. -/
namespace Applik8s.ModelClient
open Function (update update_of_ne update_self)
open Lib List Option

section
structure Object where
  spec : Record Json
  status : Option (Record Json)
  deriving DecidableEq

structure Patch where
  spec : Option (Record Json) := none
  status : Option (Record Json) := none
  deriving DecidableEq

def modelStatusPatch (existing patch : Option (Record Json)) : Option (Record Json) :=
  if existing.isNone && patch.isNone then none else some ((existing.getD []).assign (patch.getD []))

/-- The object that a patch writes. -/
def Patch.apply (patch : Patch) (existing : Object) : Object where
  spec := existing.spec.assign (patch.spec.getD [])
  status := modelStatusPatch existing.status patch.status

/-- What succeeded; of a patch, whether there was a row to write. -/
inductive Deed where
  | patch (patch : Patch) (found : Bool)
  | delete
  deriving DecidableEq

/-- One object and its sessions, each a transaction at READ COMMITTED; a plain call is one that commits at once. -/
structure World where
  committed : Option Object
  /-- The session that has written the row, with its version. -/
  lock : Option (Nat × Option Object) := none
  /-- A session's patch that has read, and what it read. -/
  calls : Nat → Option (Patch × Object) := fun _ => none
  pending : Nat → List Deed := fun _ => []
  log : List Deed := []

inductive Step where
  | read (session : Nat) (patch : Patch)
  | write (session : Nat)
  | delete (session : Nat)
  | commit (session : Nat)
  | rollback (session : Nat)

namespace World
variable (world : World) (session : Nat)

def view : Option Object :=
  match world.lock with
  | some (holder, version) => if holder = session then version else world.committed
  | none => world.committed

/-- Another session has written the row. -/
def blocked : Bool := world.lock.any (·.1 ≠ session)

/-- The session writes the row. -/
def put (version : Option Object) (deed : Deed) : World :=
  { world with
    lock := some (session, version)
    pending := update world.pending session (world.pending session ++ [deed]) }

/-- The session ends; `log` is what it leaves. -/
def close (committed : Option Object) (log : List Deed) : World :=
  { committed, log
    lock := world.lock.filter (·.1 ≠ session)
    calls := update world.calls session none
    pending := update world.pending session [] }

def next : Step → World
  | .read session patch =>
    match world.view session with
    | some existing => { world with calls := update world.calls session (some (patch, existing)) }
    | none => world
  | .write session =>
    match world.calls session with
    | some (patch, existing) =>
      if world.blocked session then world
      else
        let world := { world with calls := update world.calls session none }
        match world.view session with
        | some _ => world.put session (some (patch.apply existing)) (.patch patch true)
        -- no row is updated, and the patch returns all the same
        | none =>
          { world with pending := update world.pending session (world.pending session ++ [.patch patch false]) }
    | none => world
  | .delete session =>
    if world.blocked session || (world.view session).isNone then world else world.put session none .delete
  | .commit session => world.close session (world.view session) (world.log ++ world.pending session)
  | .rollback session => world.close session world.committed world.log

/-- A patch finds the object as it has read it. -/
def Spared : Step → Prop
  | .write session => ∀ call ∈ world.calls session, world.blocked session = false → world.view session = some call.2
  | _ => True

end World

def replay : Option Object → List Deed → Option (Option Object)
  | object, [] => some object
  | some object, .patch patch _ :: rest => replay (some (patch.apply object)) rest
  | none, .patch _ _ :: _ => none
  | _, .delete :: rest => replay none rest

/-- What the successful calls left is what they leave in some order, and each patch among them wrote a row. -/
structure Serial (initial : Option Object) (world : World) : Prop where
  ordered : ∃ order : List Deed, order.Perm world.log ∧ replay initial order = some world.committed
  found : ∀ patch, .patch patch false ∉ world.log

def run (initial : Option Object) (steps : List Step) : World := runFrom World.next { committed := initial } steps

/-- The invariant of spared runs. -/
structure Sound (initial : Option Object) (world : World) : Prop where
  serial : replay initial world.log = some world.committed
  held : ∀ holder version, world.lock = some (holder, version) → replay world.committed (world.pending holder) = some version
  idle : ∀ session, (∀ version, world.lock ≠ some (session, version)) → world.pending session = []
  found : ∀ patch, .patch patch false ∉ world.log ∧ ∀ session, .patch patch false ∉ world.pending session

variable {initial : Option Object} {world : World} {session : Nat}

theorem replay_append :
    replay obj (earlier ++ later) = (replay obj earlier).bind (replay · later) := by
  induction earlier generalizing obj with
  | nil => rfl
  | cons deed rest ih => cases deed <;> cases obj <;> simp [replay, ih]

/-- What a session sees is what its own writes make of the committed object. -/
theorem Sound.viewed (sound : Sound initial world) (session : Nat) :
    replay world.committed (world.pending session) = some (world.view session) := by
  cases lock : world.lock with
  | none => simp [World.view, lock, sound.idle session (by simp [lock]), replay]
  | some row =>
    by_cases same : row.1 = session
    · simpa [World.view, lock, same] using sound.held session row.2 (by simp [lock, ← same])
    · simp [World.view, lock, same, sound.idle session (by simp [lock, Prod.ext_iff, same]), replay]

/-- Where a session may write, no other one has. -/
theorem Sound.at_rest (sound : Sound initial world) (free : world.blocked session = false) (differ : other ≠ session)
    : world.pending other = [] := by
  refine sound.idle other fun version held => ?_
  simp [World.blocked, held, differ] at free

theorem sound_put (sound : Sound initial world) (free : world.blocked session = false) {version : Option Object}
    {deed : Deed} (step : replay (world.view session) [deed] = some version) (found : ∀ patch, deed ≠ .patch patch false) :
    Sound initial (world.put session version deed) where
  serial := sound.serial
  held _ _ locked := by
    cases locked
    simp [World.put, replay_append, sound.viewed, step]
  idle other unlocked := by
    have differ : other ≠ session := by
      rintro rfl
      exact unlocked version rfl
    simpa [World.put, update_of_ne differ] using sound.at_rest free differ
  found patch := by
    refine ⟨(sound.found patch).1, fun other => ?_⟩
    by_cases same : other = session
    · subst same
      simpa [World.put] using ⟨(sound.found patch).2 other, (found patch).symm⟩
    · simpa [World.put, update_of_ne same] using (sound.found patch).2 other

/-- A session that ends leaves the object as it was, or as it alone has written it. -/
theorem sound_close (sound : Sound initial world) {committed : Option Object} {log : List Deed}
    (serial : replay initial log = some committed) (found : ∀ patch, .patch patch false ∉ log)
    (kept : (∀ version, world.lock ≠ some (session, version)) → committed = world.committed) :
    Sound initial (world.close session committed log) where
  serial := serial
  held holder version locked := by
    obtain ⟨locked, differ⟩ := filter_eq_some_iff.mp locked
    have differ : holder ≠ session := by simpa using differ
    have committed : committed = world.committed := kept fun version mine => by
      cases locked.symm.trans mine
      exact differ rfl
    simpa [World.close, update_of_ne differ, committed] using sound.held holder version locked
  idle other unlocked := by
    by_cases same : other = session
    · simp [World.close, same]
    simp only [World.close, update_of_ne same]
    refine sound.idle other fun version locked => unlocked version ?_
    simp [World.close, locked, same]
  found patch := by
    refine ⟨found patch, fun other => ?_⟩
    by_cases same : other = session
    · simp [World.close, same]
    · simpa [World.close, update_of_ne same] using (sound.found patch).2 other

theorem sound_next (sound : Sound initial world) (spared : world.Spared step) : Sound initial (world.next step) := by
  cases step with
  | read session patch =>
    unfold World.next
    dsimp only
    split
    · exact ⟨sound.serial, sound.held, sound.idle, sound.found⟩
    · exact sound
  | write session =>
    unfold World.next
    dsimp only
    split
    · next patch existing called =>
      split
      · exact sound
      next free =>
      have free := Bool.eq_false_iff.mpr free
      have seen : World.view { world with calls := update world.calls session none } session = some existing :=
        spared (patch, existing) called free
      have called : Sound initial { world with calls := update world.calls session none } :=
        ⟨sound.serial, sound.held, sound.idle, sound.found⟩
      rw [seen]
      exact sound_put called free (by rw [seen]; rfl) (by simp)
    · exact sound
  | delete session =>
    unfold World.next
    dsimp only
    split
    · exact sound
    next possible =>
    simp only [Bool.or_eq_true, not_or, Bool.not_eq_true] at possible
    exact sound_put sound possible.1 (by cases world.view session <;> rfl) nofun
  | commit session =>
    refine sound_close sound (by rw [replay_append, sound.serial, bind_some, sound.viewed]) (fun patch among => ?_)
      fun free => ?_
    · rcases mem_append.mp among with before | now
      · exact (sound.found patch).1 before
      · exact (sound.found patch).2 session now
    · have := sound.viewed session
      rw [sound.idle session free] at this
      exact (some.inj this).symm
  | rollback session => exact sound_close sound sound.serial (fun patch => (sound.found patch).1) fun _ => rfl

end

section
variable {Row : Type} (before : String → Row → Row → Prop) (orderBy : List String) (rows : List Row) (limit : Option Nat)

/-- `ORDER BY` the fields, each `ASC`; `before` is the order of one field. -/
def precedes : List String → Row → Row → Prop
  | [], _, _ => False
  | field :: rest, left, right =>
    before field left right ∨ ¬ before field right left ∧ precedes rest left right

/-- An order in which PostgreSQL may give the rows. -/
def Arranged (arrangement : List Row) : Prop :=
  arrangement.Perm rows ∧ arrangement.Pairwise fun earlier later => ¬ precedes before orderBy later earlier

def normalizedLimit : Nat := max 1 (min (limit.getD 50) 500)

/-- `queryPostgresModel`, of the matching rows in the order they are given: the items and the next cursor. -/
def queryPage (arrangement : List Row) (offset : Nat) : List Row × Option Nat :=
  let items := (arrangement.drop offset).take (normalizedLimit limit)
  (items, if items.length = normalizedLimit limit then some (offset + items.length) else none)

/-- The pages one gets by following the cursor, each out of an order of its own. -/
def follow (arrangements : Nat → List Row) : (fuel query offset : Nat) → List Row
  | 0, _, _ => []
  | fuel + 1, query, offset =>
    let (items, nextCursor) := queryPage limit (arrangements query) offset
    items ++ match nextCursor with
      | some cursor => follow arrangements fuel (query + 1) cursor
      | none => []

/-- Whatever orders PostgreSQL chooses, the pages have every matching row once. -/
def Complete : Prop :=
  ∀ arrangements : Nat → List Row, (∀ query, Arranged before orderBy rows (arrangements query)) →
    ∀ fuel, rows.length < fuel → (follow limit arrangements fuel 0 0).Perm rows

/-- The rows before a page's end are the same in every order: no page ends between two rows that the order does not
separate. -/
def CutClean : Prop :=
  ∀ first second, Arranged before orderBy rows first → Arranged before orderBy rows second → ∀ pages,
    (first.take (pages * normalizedLimit limit)).Perm (second.take (pages * normalizedLimit limit))

variable {before orderBy rows limit} {arrangements : Nat → List Row}

/-- The page of a query, if the cursor leads there. -/
def pageOf (limit : Option Nat) (arrangements : Nat → List Row) (query : Nat) : List Row :=
  ((arrangements query).drop (query * normalizedLimit limit)).take (normalizedLimit limit)

/-- Behind a page that is not full all pages are empty. -/
theorem follow_eq (limit : Option Nat) {count : Nat} (length : ∀ query, (arrangements query).length = count) (fuel query : Nat) :
    follow limit arrangements fuel query (query * normalizedLimit limit) =
      (List.range' query fuel).flatMap (pageOf limit arrangements) := by
  induction fuel generalizing query with
  | zero => rfl
  | succ fuel ih =>
    rw [range'_succ, flatMap_cons, follow]
    dsimp only [queryPage]
    rw [← pageOf]
    congr 1
    split
    · next cursor is =>
      split at is
      · next full =>
        rw [← ih, ← some.inj is, full, Nat.add_mul, Nat.one_mul]
      · cases is
    next is =>
    split at is
    · cases is
    next part =>
    refine (flatMap_eq_nil_iff.mpr fun later after => ?_).symm
    rw [pageOf, length_take, length_drop, length] at part
    have : (query + 1) * normalizedLimit limit ≤ later * normalizedLimit limit :=
      Nat.mul_le_mul_right _ (mem_range'_1.mp after).1
    rw [Nat.add_mul] at this
    rw [pageOf, drop_of_length_le (by rw [length]; omega), take_nil]

theorem pages_take (limit : Option Nat) (arrangements : Nat → List Row) (query : Nat) :
    (arrangements query).take (query * normalizedLimit limit) ++ pageOf limit arrangements query =
    (arrangements query).take ((query + 1) * normalizedLimit limit) := by
  rw [pageOf, ← take_add, Nat.add_mul, Nat.one_mul]

/-- Pages that are cut out of one order. -/
theorem pages_of_one (first count : Nat)
    (one : ∀ query, first ≤ query → query < first + count → arrangements query = arrangement) :
    arrangement.take (first * normalizedLimit limit) ++ (List.range' first count).flatMap (pageOf limit arrangements) =
      arrangement.take ((first + count) * normalizedLimit limit) := by
  induction count with
  | zero => simp
  | succ count ih =>
    have is := one (first + count) (Nat.le_add_right _ _) (Nat.lt_succ_self _)
    rw [range'_1_concat, flatMap_append, ← append_assoc,
      ih fun query after below => one query after (Nat.lt_succ_of_lt below)]
    simpa only [is, Nat.add_assoc, flatMap_singleton] using pages_take limit arrangements (first + count)

theorem complete_iff : Complete before orderBy rows limit ↔ CutClean before orderBy rows limit := by
  have positive : 0 < normalizedLimit limit := Nat.lt_of_lt_of_le Nat.one_pos (Nat.le_max_left _ _)
  constructor
  · intro complete first second one two pages
    let mixed := fun query => if query < pages then first else second
    have arranged : ∀ query, Arranged before orderBy rows (mixed query) := fun query => by
      dsimp only [mixed]
      split <;> assumption
    have all := complete mixed arranged (pages + (rows.length + 1)) (by omega)
    have whole := follow_eq limit (fun query => (arranged query).1.length_eq) (pages + (rows.length + 1)) 0
    rw [Nat.zero_mul, ← range'_append_1, flatMap_append, Nat.zero_add] at whole
    have early : (List.range' 0 pages).flatMap (pageOf limit mixed) = first.take (pages * normalizedLimit limit) := by
      simpa using pages_of_one 0 pages fun query _ below => if_pos (Nat.zero_add pages ▸ below)
    have late : second.take (pages * normalizedLimit limit) ++
        (List.range' pages (rows.length + 1)).flatMap (pageOf limit mixed) = second := by
      rw [pages_of_one pages (rows.length + 1) fun query after _ => if_neg (Nat.not_lt.mpr after), take_of_length_le]
      rw [two.1.length_eq]
      exact (by omega : rows.length ≤ pages + (rows.length + 1)).trans (Nat.le_mul_of_pos_right _ positive)
    rw [whole, early] at all
    exact (perm_append_right_iff _).mp (all.trans (two.1.symm.trans (.of_eq late.symm)))
  · intro clean arrangements arranged fuel more
    have upTo : ∀ count, ((List.range' 0 count).flatMap (pageOf limit arrangements)).Perm
        ((arrangements count).take (count * normalizedLimit limit)) := fun count => by
      induction count with
      | zero => simp
      | succ count ih =>
        rw [range'_1_concat, flatMap_append, Nat.zero_add]
        refine ((ih.append_right _).trans ?_).trans (clean _ _ (arranged count) (arranged (count + 1)) (count + 1))
        simp [pages_take limit arrangements]
    have := follow_eq limit (fun query => (arranged query).1.length_eq) fuel 0
    rw [Nat.zero_mul] at this
    rw [this]
    refine (upTo fuel).trans ?_
    rw [take_of_length_le]
    · exact (arranged fuel).1
    · rw [(arranged fuel).1.length_eq]
      exact more.le.trans (Nat.le_mul_of_pos_right _ positive)

end

def order : Object := ⟨[("title", .string "Order"), ("note", .string "")], none⟩
def named : Patch := { spec := some [("title", .string "Rush order")] }
def noted : Patch := { spec := some [("note", .string "Call first")] }

end Applik8s.ModelClient
