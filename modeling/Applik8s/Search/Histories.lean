import Applik8s.Search.Convergence
import Applik8s.Search.Objects

/-! Both search runtimes against the history of their sources. The deterministic runtime checks a
change before it awaits and writes it behind, and installs a rebuilt generation without looking at
the active one; where these stretches meet a memory that has not gone on, its documents follow the
history as those of the PostgreSQL runtime do. -/
namespace Applik8s.Search.Deterministic
open Function (update update_apply update_self update_of_ne)
open Lib List Option Nat
variable {Document : Type} {opts : RuntimeOptions}
  {evidence : Record (StoredDocument Document) → RebuildValidation} {source : Source Document}
  {mem memory' : Memory Document}

def Told (source : Source Document) : (request : Request Document) → request.Result → Prop
  | .affectedRoots change _, affected => source.Roots change affected
  | .hydrate identities frontier, hydrated => source.Hydrates identities frontier hydrated
  | .openSnapshot, opened => opened.frontier = source.frontier opened.snapshotId
  | .readSnapshot snapshotId cursor _, page => source.Pages snapshotId cursor page
  | _, _ => True

/-- The memory has not gone on: a change is written to an object that has not passed it, a
generation is named or given up while it is not the active one, and installed while its name stands
for the object that was built and the active one is not further. -/
def Timely (memory : Memory Document) : Request Document → Prop
  | .write object change _ _ => (memory.objects object).checkpoint ≤ change.commitPosition
  | .allocate generation _ => memory.activeGeneration ≠ generation
  | .discard generation => memory.activeGeneration ≠ generation
  | .cutOver generation object => memory.generations generation = some object ∧
      ∀ active, memory.generations memory.activeGeneration = some active →
        (memory.objects active).checkpoint ≤ (memory.objects object).checkpoint
  | _ => True

instance Timely.decidable (memory : Memory Document) :
    (request : Request Document) → Decidable (Timely memory request)
  | .write object change _ _ =>
    inferInstanceAs (Decidable ((memory.objects object).checkpoint ≤ change.commitPosition))
  | .allocate generation _ => inferInstanceAs (Decidable (memory.activeGeneration ≠ generation))
  | .discard generation => inferInstanceAs (Decidable (memory.activeGeneration ≠ generation))
  | .cutOver generation object =>
    decidable_of_iff (memory.generations generation = some object ∧
      ∀ active ∈ memory.generations memory.activeGeneration,
        (memory.objects active).checkpoint ≤ (memory.objects object).checkpoint) Iff.rfl
  | .enter _ | .current | .admitChange _ _ | .markLagging | .notePage _ _ | .noteCatchUp _ _
  | .checkpointOf _ | .enterRebuild _ | .load _ _ | .readValidation _ | .retire _ | .readChanges _ _
  | .affectedRoots _ _ | .hydrate _ _ | .openSnapshot | .readSnapshot _ _ _ | .closeSnapshot _
  | .validate _ => inferInstanceAs (Decidable True)

instance asks_timely (system : System Document) (caller : Nat) :
    Decidable (system.Asks caller (Timely system.world)) :=
  system.decideAsks caller (Timely.decidable system.world)

/-- What the sources answer at this step tells of the history, and the memory has not gone on. -/
def TimelyStep (source : Source Document) (system : System Document) : Event Document → Prop
  | .step caller answer => ∀ operation request rest, system.callers caller = some ⟨operation, .call request rest⟩ →
      Told source request (answer.outside request) ∧ Timely system.world request
  | _ => True

theorem answers_told (told : Told source req (answer.outside req)) :
    answers source.reckoning req ((server opts evidence).answer req answer mem).1 := by
  obtain ⟨fails, _⟩ := answer
  cases req with
  | affectedRoots => cases fails <;> trivial
  | hydrate => cases fails <;> trivial
  | openSnapshot => cases fails <;> trivial
  | readSnapshot => cases fails <;> trivial
  | _ => trivial

def Whole (source : Source Document) (memory : Memory Document) (object : Nat) : Prop :=
  object < memory.allocated ∧ source.Holds (memory.objects object).documents (memory.objects object).checkpoint

def Phase.object : Phase Document → Option Nat
  | .loading _ object _ _ => some object
  | .holding _ object _ _ _ => some object
  | .writing object _ _ => some object
  | _ => none

def Phase.loads : Phase Document → Option Nat
  | .loading _ object _ _ => some object
  | .holding _ object _ _ _ => some object
  | _ => none

variable {phase : Phase Document}

theorem object_of_loads (loads : phase.loads = some obj) : phase.object = some obj := by
  cases phase <;> first | exact loads | cases loads

def Fits (source : Source Document) (memory : Memory Document) : Phase Document → Prop
  | .ready _ opened => opened.frontier = source.frontier opened.snapshotId
  | .loading _ object opened cursor => object < memory.allocated ∧
      (memory.objects object).checkpoint = source.frontier opened.snapshotId ∧
      source.Partly opened.snapshotId cursor (memory.objects object).documents
  | .holding _ object opened cursor page => object < memory.allocated ∧
      (memory.objects object).checkpoint = source.frontier opened.snapshotId ∧
      source.Partly opened.snapshotId cursor (memory.objects object).documents ∧
      source.Pages opened.snapshotId cursor page
  | .writing object _ admitted => Whole source memory object ∧ ∀ position, admitted = some position →
        position ≤ (memory.objects object).checkpoint + 1
  | _ => True

/-- A step leaves an object as it was, or takes a whole one further. -/
def Kept (source : Source Document) (memory memory' : Memory Document) (object : Nat) : Prop :=
  memory'.objects object = memory.objects object ∨ Whole source memory' object ∧
      (memory.objects object).checkpoint ≤ (memory'.objects object).checkpoint

theorem Fits.allocated (fits : Fits source mem phase) (is : phase.object = some obj) : obj < mem.allocated := by
  cases phase with
  | loading =>
    cases is
    exact fits.1
  | holding =>
    cases is
    exact fits.1
  | writing =>
    cases is
    exact fits.1.1
  | _ => cases is

theorem Fits.kept (fits : Fits source mem phase) (more : mem.allocated ≤ memory'.allocated)
    (kept : ∀ obj, phase.object = some obj → Kept source mem memory' obj)
    (alone : ∀ obj, phase.loads = some obj → memory'.objects obj = mem.objects obj) : Fits source memory' phase := by
  cases phase with
  | loading _ obj =>
    have same := alone obj rfl
    obtain ⟨made, mark, partly⟩ := fits
    exact ⟨made.trans_le more, by rw [same, mark], by rwa [same]⟩
  | holding _ obj =>
    have same := alone obj rfl
    obtain ⟨made, mark, _, pages⟩ := fits
    exact ⟨made.trans_le more, by rw [same, mark], by rwa [same], pages⟩
  | writing obj =>
    obtain ⟨⟨made, _⟩, within⟩ := fits
    rcases kept obj rfl with same | ⟨whole, _⟩
    · refine ⟨⟨made.trans_le more, by rwa [same]⟩, ?_⟩
      rw [same]
      exact within
    · refine ⟨whole, fun pos is => ?_⟩
      have bound := within pos is
      omega
  | _ => exact fits

/-- The active generation is whole, every call finds what its phase says, and an object that is
being loaded is in no other hands. -/
structure InStep (source : Source Document) (memory : Memory Document)
    (phases : Nat → Option (Operation × Phase Document)) : Prop where
  active : ∃ object, memory.generations memory.activeGeneration = some object ∧ Whole source memory object
  fits : ∀ caller operation phase, phases caller = some (operation, phase) → Fits source memory phase
  inactive : ∀ caller operation phase object, phases caller = some (operation, phase) →
    phase.loads = some object → memory.generations memory.activeGeneration ≠ some object
  alone : ∀ caller other operation operation' phase phase' object, caller ≠ other →
    phases caller = some (operation, phase) → phases other = some (operation', phase') →
    phase.loads = some object → phase'.object ≠ some object

section
variable {phases : Nat → Option (Operation × Phase Document)} {caller : Nat}
  {operation : Operation} {phase phase' : Phase Document}

section
variable (held : InStep source mem phases) (here : phases caller = some (operation, phase))
include held here

/-- A step of one call, told by what it does to the objects, to the active generation and to its
own phase. -/
theorem InStep.step (more : mem.allocated ≤ memory'.allocated)
    (kept : ∀ object, object < mem.allocated → memory'.objects object = mem.objects object ∨
      phase.object = some object ∧ (phase.loads = none → Kept source mem memory' object))
    (active : ∃ object, memory'.generations memory'.activeGeneration = some object ∧ Whole source memory' object)
    (fits : Fits source memory' phase')
    (inactive : ∀ object, memory'.generations memory'.activeGeneration = some object → phase'.loads ≠ some object ∧
        (mem.generations mem.activeGeneration = some object ∨ phase.object = some object))
    (own : ∀ object, phase'.object = some object → phase.object = some object ∨
      mem.generations mem.activeGeneration = some object ∧ phase'.loads = none ∨ mem.allocated ≤ object)
    (loads : ∀ object, phase'.loads = some object → phase.loads = some object ∨ mem.allocated ≤ object) :
    InStep source memory' (update phases caller (some (operation, phase'))) := by
  -- what another call loads is in nobody else's hands, neither before the step nor behind it
  have foreign : ∀ other operation' ph object, other ≠ caller →
      phases other = some (operation', ph) → ph.loads = some object →
      phase.object ≠ some object ∧ mem.generations mem.activeGeneration ≠ some object ∧
        object < mem.allocated := by
    intro other operation' ph object differ there loading
    exact ⟨held.alone other caller operation' operation ph phase object differ there here loading,
      held.inactive other operation' ph object there loading,
      (held.fits other operation' ph there).allocated (object_of_loads loading)⟩
  refine ⟨active, ?_, ?_, ?_⟩
  · intro other operation' ph there
    rw [update_apply] at there
    split at there
    · obtain ⟨-, rfl⟩ := Prod.mk.inj (some.inj there)
      exact fits
    next differ =>
    have before := held.fits other operation' ph there
    refine before.kept more ?_ ?_
    · intro object is
      rcases kept object (before.allocated is) with same | ⟨mine, whole⟩
      · exact .inl same
      refine whole ?_
      cases loading : phase.loads with
      | none => rfl
      | some loaded =>
        cases (object_of_loads loading).symm.trans mine
        exact absurd is (held.alone caller other operation operation' phase ph _ (Ne.symm differ) here there loading)
    · intro object loading
      obtain ⟨notMine, -, made⟩ := foreign other operation' ph object differ there loading
      rcases kept object made with same | ⟨mine, -⟩
      · exact same
      · exact absurd mine notMine
  · intro other operation' ph object there loading isActive
    rw [update_apply] at there
    split at there
    · obtain ⟨-, rfl⟩ := Prod.mk.inj (some.inj there)
      exact (inactive object isActive).1 loading
    next differ =>
    obtain ⟨notMine, notActive, -⟩ := foreign other operation' ph object differ there loading
    rcases (inactive object isActive).2 with before | mine
    · exact notActive before
    · exact notMine mine
  · intro first second operation₁ operation₂ ph₁ ph₂ object differ one two loading is
    rw [update_apply] at one two
    split at one
    · next isFirst =>
      obtain ⟨-, rfl⟩ := Prod.mk.inj (some.inj one)
      split at two
      · next isSecond => exact differ (isFirst.trans isSecond.symm)
      have made := (held.fits second operation₂ ph₂ two).allocated is
      rcases loads object loading with before | fresh
      · exact held.alone caller second operation operation₂ phase ph₂ object (isFirst ▸ differ) here two before is
      · omega
    next notFirst =>
    obtain ⟨notMine, notActive, _⟩ := foreign first operation₁ ph₁ object notFirst one loading
    split at two
    · obtain ⟨-, rfl⟩ := Prod.mk.inj (some.inj two)
      rcases own object is with mine | ⟨isActive, -⟩ | _
      · exact notMine mine
      · exact notActive isActive
      · omega
    · exact held.alone first second operation₁ operation₂ ph₁ ph₂ object differ one two loading is

theorem InStep.quiet (objects : memory'.objects = mem.objects) (allocated : memory'.allocated = mem.allocated)
    (active : memory'.generations memory'.activeGeneration = mem.generations mem.activeGeneration)
    (fits : Fits source mem phase')
    (own : ∀ obj, phase'.object = some obj → phase.object = some obj ∨
      mem.generations mem.activeGeneration = some obj ∧ phase'.loads = none)
    (loads : ∀ obj, phase'.loads = some obj → phase.loads = some obj) :
    InStep source memory' (update phases caller (some (operation, phase'))) := by
  refine held.step here allocated.ge (fun obj _ => .inl (by rw [objects])) ?_ ?_ ?_ ?_ ?_
  · obtain ⟨obj, found, _, _⟩ := held.active
    exact ⟨obj, active.trans found, by rwa [allocated], by rwa [objects]⟩
  · exact fits.kept allocated.ge (fun obj _ => .inl (by rw [objects])) fun obj _ => by
      rw [objects]
  · intro obj found
    rw [active] at found
    exact ⟨fun loading => held.inactive caller operation phase obj here (loads obj loading) found, .inl found⟩
  · intro obj is
    rcases own obj is with mine | isActive
    · exact .inl mine
    · exact .inr (.inl isActive)
  · exact fun obj loading => .inl (loads obj loading)

theorem InStep.still (objects : memory'.objects = mem.objects) (allocated : memory'.allocated = mem.allocated)
    (active : memory'.generations memory'.activeGeneration = mem.generations mem.activeGeneration) :
    InStep source memory' (update phases caller (some (operation, phase))) :=
  held.quiet here objects allocated active (held.fits caller operation phase here) (fun _ => .inl) fun _ => id

end

variable {object : Nat} {change : CommittedChange}

theorem admitChange_true (done : admitChange opts obj change mem = .ok true) :
    change.commitPosition = (mem.objects obj).checkpoint + 1 := by
  unfold admitChange at done
  simp only [bind, Except.bind, pure, Except.pure] at done
  split at done
  · cases done
  split at done
  · split at done
    · cases done
    · split at done <;> cases done
  · split at done
    · cases done
    · next contiguous => exact not_not.mp contiguous

theorem currentGeneration_ok (done : currentGeneration opts mem = .ok obj) :
    mem.generations mem.activeGeneration = some obj := by
  unfold currentGeneration at done
  split at done
  · next found => rw [found, Except.ok.inj done]
  · cases done

theorem enter_some (done : enter opts change mem = .ok (some obj)) : mem.generations mem.activeGeneration = some obj ∧
      change.commitPosition = (mem.objects obj).checkpoint + 1 := by
  unfold enter at done
  simp only [bind, Except.bind, pure, Except.pure] at done
  split at done
  · cases done
  next found cur =>
  split at done
  · cases done
  split at done
  · cases done
  next admitted check =>
  cases admitted with
  | false => cases done
  | true =>
    cases Except.ok.inj done
    exact ⟨currentGeneration_ok cur, admitChange_true check⟩

section
variable (held : InStep source mem phases)
include held

theorem InStep.takes (here : phases caller = some (op, phase)) (found : mem.generations mem.activeGeneration = some obj)
    (within : ∀ pos, admitted = some pos → pos ≤ (mem.objects obj).checkpoint + 1) :
    InStep source mem (update phases caller (some (op, .writing obj none admitted))) := by
  obtain ⟨active, isActive, whole⟩ := held.active
  cases found.symm.trans isActive
  refine held.quiet here rfl rfl rfl ⟨whole, within⟩ ?_ nofun
  intro taken is
  cases is
  exact .inr ⟨found, rfl⟩

theorem InStep.writes (here : phases caller = some (op, .writing obj own (some change.commitPosition)))
    (right : source.Right change hydrated) (timely : (mem.objects obj).checkpoint ≤ change.commitPosition) :
    InStep source (write opts obj change hydrated updates mem) (update phases caller
        (some (op, .writing obj own (some change.commitPosition)))) := by
  obtain ⟨⟨made, holds⟩, within⟩ := held.fits caller op _ here
  have next := within change.commitPosition rfl
  have changed : (write opts obj change hydrated updates mem).objects obj =
      { documents := replaceDocuments (mem.objects obj).documents hydrated
        applied := (change.commitPosition, change.id) :: (mem.objects obj).applied.filter (·.1 ≠ change.commitPosition)
        checkpoint := change.commitPosition } := update_self ..
  have others : ∀ other, other ≠ obj → (write opts obj change hydrated updates mem).objects other = mem.objects other :=
    fun other differ => update_of_ne differ ..
  have whole : Whole source (write opts obj change hydrated updates mem) obj := by
    refine ⟨made, ?_⟩
    rw [changed]
    rcases timely.eq_or_lt with same | _
    · exact Source.Holds.reapply (same ▸ holds) right
    · exact holds.apply right (by omega)
  have kept : ∀ other, Kept source mem (write opts obj change hydrated updates mem) other := by
    intro other
    by_cases same : other = obj
    · subst same
      exact .inr ⟨whole, by rw [changed]; exact timely⟩
    · exact .inl (others other same)
  refine held.step here le_rfl ?_ ?_ ⟨whole, ?_⟩ ?_ (fun _ => .inl) nofun
  · intro other _
    by_cases same : other = obj
    · subst same
      exact .inr ⟨rfl, fun _ => kept other⟩
    · exact .inl (others other same)
  · obtain ⟨active, found, activeMade, _⟩ := held.active
    refine ⟨active, found, ?_⟩
    rcases kept active with same | ⟨whole, -⟩
    · exact ⟨activeMade, by rwa [same]⟩
    · exact whole
  · intro pos is
    cases is
    rw [changed]
    exact le_succ _
  · exact fun active found => ⟨nofun, .inl found⟩

variable {generation : String} {opened : OpenedSnapshot}

theorem InStep.allocates (here : phases caller = some (op, .ready gen opened))
    (timely : mem.activeGeneration ≠ gen) : InStep source (allocate gen opened.frontier mem).2
      (update phases caller (some (op, .loading gen mem.allocated opened none))) := by
  have frontier : opened.frontier = source.frontier opened.snapshotId :=
    held.fits caller op _ here
  have fresh : (allocate gen opened.frontier mem).2.objects mem.allocated = ⟨[], [], opened.frontier⟩ := update_self ..
  have others : ∀ other, other < mem.allocated →
      (allocate gen opened.frontier mem).2.objects other = mem.objects other :=
    fun other made => update_of_ne (Nat.ne_of_lt made) ..
  have active : (allocate gen opened.frontier mem).2.generations
      mem.activeGeneration = mem.generations mem.activeGeneration :=
    update_of_ne timely ..
  obtain ⟨obj, found, made, _⟩ := held.active
  refine held.step here (le_succ _) (fun other made => .inl (others other made)) ?_ ?_ ?_ ?_ ?_
  · exact ⟨obj, active.trans found, lt_succ_of_lt made, by rwa [others obj made]⟩
  · refine ⟨lt_succ_self _, ?_, ?_⟩
    · rw [fresh, ← frontier]
    · rw [fresh]
      exact source.partly_nil opened.snapshotId
  · intro other isActive
    have before := active.symm.trans isActive
    refine ⟨?_, .inl before⟩
    rintro same
    cases same
    cases found.symm.trans before
    exact lt_irrefl _ made
  · intro other is
    cases is
    exact .inr (.inr le_rfl)
  · intro other is
    cases is
    exact .inr le_rfl

theorem InStep.loads (here : phases caller = some (op, .holding gen obj opened cursor page)) :
    InStep source (load obj page.items mem) (update phases caller (some (op,
        if page.exhausted then .writing obj (some gen) none
        else .loading gen obj opened page.cursor))) := by
  obtain ⟨made, mark, partly, pages⟩ := held.fits caller op _ here
  have changed : (load obj page.items mem).objects obj =
      { mem.objects obj with
        documents := replaceDocuments (mem.objects obj).documents page.items } :=
    update_self ..
  have others : ∀ other, other ≠ obj → (load obj page.items mem).objects other = mem.objects other :=
    fun other differ => update_of_ne differ ..
  have notActive := held.inactive caller op _ obj here rfl
  obtain ⟨active, found, activeMade, _⟩ := held.active
  have differ : active ≠ obj := by
    rintro rfl
    exact notActive found
  have fits : Fits source (load obj page.items mem) (if page.exhausted then .writing obj (some gen) none
        else .loading gen obj opened page.cursor) := by
    cases last : page.exhausted with
    | true =>
      refine ⟨⟨made, ?_⟩, nofun⟩
      rw [changed, mark]
      exact partly.last pages last
    | false =>
      refine ⟨made, by rw [changed, mark], ?_⟩
      rw [changed]
      exact partly.further pages last
  refine held.step here le_rfl ?_ ⟨active, found, activeMade, by rwa [others active differ]⟩ fits ?_ ?_ ?_
  · intro other _
    by_cases same : other = obj
    · subst same
      exact .inr ⟨rfl, nofun⟩
    · exact .inl (others other same)
  · intro other isActive
    cases found.symm.trans isActive
    refine ⟨?_, .inl found⟩
    split
    · nofun
    · exact fun same => differ (some.inj same).symm
  · intro other is
    left
    split at is <;> exact is
  · intro other is
    left
    split at is
    · cases is
    · exact is

theorem InStep.installs (here : phases caller = some (op, .writing obj (some gen) admitted))
    (named : mem.generations gen = some obj) : InStep source (cutOver gen obj mem).2
      (update phases caller (some (op, .writing obj (some gen) admitted))) := by
  obtain ⟨whole, within⟩ := held.fits caller op _ here
  refine held.step here le_rfl (fun _ _ => .inl rfl) ⟨obj, named, whole⟩ ⟨whole, within⟩ ?_ (fun _ => .inl) nofun
  intro other isActive
  exact ⟨nofun, .inr (congrArg some (some.inj (named.symm.trans isActive)))⟩

end

theorem notePage_quiet (obj : Nat) (page : ChangePage) (mem : Memory Document) :
    (notePage obj page mem).2.objects = mem.objects ∧ (notePage obj page mem).2.allocated = mem.allocated ∧
      (notePage obj page mem).2.generations = mem.generations ∧
      (notePage obj page mem).2.activeGeneration = mem.activeGeneration := by
  unfold notePage
  dsimp only
  split <;> exact ⟨rfl, rfl, rfl, rfl⟩

theorem noteCatchUp_quiet (obj : Nat) (page : ChangePage) (mem : Memory Document) :
    (noteCatchUp obj page mem).2.objects = mem.objects ∧ (noteCatchUp obj page mem).2.allocated = mem.allocated ∧
      (noteCatchUp obj page mem).2.generations = mem.generations ∧
      (noteCatchUp obj page mem).2.activeGeneration = mem.activeGeneration := by
  unfold noteCatchUp
  dsimp only
  split <;> exact ⟨rfl, rfl, rfl, rfl⟩

theorem retireGeneration_quiet (opts : RuntimeOptions) (gen : String) (mem : Memory Document) :
    (retireGeneration opts gen mem).2.objects = mem.objects ∧
      (retireGeneration opts gen mem).2.allocated = mem.allocated ∧
      (retireGeneration opts gen mem).2.generations (retireGeneration opts gen mem).2.activeGeneration =
        mem.generations mem.activeGeneration := by
  unfold retireGeneration
  split
  · exact ⟨rfl, rfl, rfl⟩
  · next other => exact ⟨rfl, rfl, update_of_ne (Ne.symm other) ..⟩

variable {request : Request Document} {answer : Answer Document} {reply : Except Failure request.Result}

theorem InStep.called (held : InStep source mem phases) (here : phases caller = some (operation, phase))
        (permitted : permits source.reckoning phase request)
    (answered : answers source.reckoning request reply) (timely : Timely mem request)
    (came : (server opts evidence).answer request answer mem = (reply, memory')) : InStep source memory'
      (update phases caller (some (operation, after phase request reply))) := by
  cases request with
  | enter change =>
    cases came
    cases done : enter opts change mem with
    | error => exact held.still here rfl rfl rfl
    | ok admitted =>
      cases admitted with
      | none => exact held.still here rfl rfl rfl
      | some object =>
        obtain ⟨found, contiguous⟩ := enter_some done
        refine held.takes here found fun pos is => ?_
        rw [← some.inj is, contiguous]
  | current =>
    cases came
    dsimp only [bind, Except.bind, pure, Except.pure]
    cases done : currentGeneration opts mem with
    | error => exact held.still here rfl rfl rfl
    | ok object => exact held.takes here (currentGeneration_ok done) nofun
  | admitChange object change =>
    cases came
    obtain ⟨own, _, rfl⟩ := permitted
    cases done : admitChange opts object change mem with
    | error => exact held.still here rfl rfl rfl
    | ok fresh =>
      cases fresh with
      | false => exact held.still here rfl rfl rfl
      | true =>
        have whole := (held.fits caller operation _ here).1
        refine held.quiet here rfl rfl rfl ⟨whole, fun pos is => ?_⟩ (fun _ => .inl) nofun
        rw [← some.inj is, admitChange_true done]
  | markLagging =>
    cases came
    exact held.still here rfl rfl rfl
  | write =>
    cases came
    obtain ⟨right, _, rfl⟩ := permitted
    exact held.writes here right timely
  | notePage object page =>
    have came : notePage object page mem = (reply, memory') := came
    obtain ⟨objects, allocated, gens, active⟩ := notePage_quiet object page mem
    rw [came] at objects allocated gens active
    exact held.still here objects allocated (by rw [gens, active])
  | noteCatchUp object page =>
    have came : noteCatchUp object page mem = (reply, memory') := came
    obtain ⟨objects, allocated, gens, active⟩ := noteCatchUp_quiet object page mem
    rw [came] at objects allocated gens active
    exact held.still here objects allocated (by rw [gens, active])
  | checkpointOf object =>
    cases came
    exact held.still here rfl rfl rfl
  | enterRebuild generation =>
    cases came
    cases enterRebuild opts generation mem with
    | error => exact held.still here rfl rfl rfl
    | ok _ => exact held.quiet here rfl rfl rfl trivial nofun nofun
  | allocate =>
    cases came
    obtain ⟨opened, rfl, rfl⟩ := permitted
    exact held.allocates here timely
  | load =>
    cases came
    obtain ⟨generation, opened, _, _, rfl, rfl⟩ := permitted
    exact held.loads here
  | readValidation object =>
    cases came
    exact held.still here rfl rfl rfl
  | cutOver =>
    cases came
    obtain ⟨_, rfl⟩ := permitted
    exact held.installs here timely.1
  | discard =>
    cases came
    exact held.still here rfl rfl (update_of_ne timely ..)
  | retire generation =>
    have came : retireGeneration opts generation mem = (reply, memory') := came
    obtain ⟨objects, allocated, active⟩ := retireGeneration_quiet opts generation mem
    rw [came] at objects allocated active
    exact held.still here objects allocated active
  | openSnapshot =>
    cases came
    obtain ⟨generation, rfl⟩ := permitted
    cases fails : answer.fails with
    | true => exact held.still here rfl rfl rfl
    | false =>
      rw [fails] at answered
      exact held.quiet here rfl rfl rfl answered nofun nofun
  | readSnapshot =>
    cases came
    obtain ⟨_, _, _, rfl, rfl⟩ := permitted
    cases fails : answer.fails with
    | true => exact held.still here rfl rfl rfl
    | false =>
      rw [fails] at answered
      obtain ⟨made, mark, partly⟩ := held.fits caller operation _ here
      exact held.quiet here rfl rfl rfl ⟨made, mark, partly, answered⟩ (fun _ => .inl) fun _ => id
  | readChanges =>
    cases came
    exact held.still here rfl rfl rfl
  | affectedRoots =>
    cases came
    exact held.still here rfl rfl rfl
  | hydrate =>
    cases came
    exact held.still here rfl rfl rfl
  | closeSnapshot =>
    cases came
    exact held.still here rfl rfl rfl
  | validate =>
    cases came
    exact held.still here rfl rfl rfl

/-- The checkpoint of the active generation does not go back. -/
def Advances (memory memory' : Memory Document) : Prop :=
  ∀ object, memory.generations memory.activeGeneration = some object →
    ∃ later, memory'.generations memory'.activeGeneration = some later ∧
      (memory.objects object).checkpoint ≤ (memory'.objects later).checkpoint

theorem Advances.refl (mem : Memory Document) : Advances mem mem :=
  fun obj found => ⟨obj, found, le_rfl⟩

theorem Advances.trans (first : Advances mem memory') (second : Advances memory' memory'') : Advances mem memory'' := by
  intro obj found
  obtain ⟨later, found', further⟩ := first obj found
  obtain ⟨last, found'', furthest⟩ := second later found'
  exact ⟨last, found'', further.trans furthest⟩

theorem advances_of_same (objects : memory'.objects = mem.objects)
    (active : memory'.generations memory'.activeGeneration =
      mem.generations mem.activeGeneration) : Advances mem memory' :=
  fun obj found => ⟨obj, active.trans found, by rw [objects]⟩

theorem step_advances (held : InStep source mem phases) (timely : Timely mem request)
    (came : (server opts evidence).answer request answer mem = (reply, memory')) : Advances mem memory' := by
  cases request with
  | write object =>
    cases came
    intro active found
    refine ⟨active, found, ?_⟩
    by_cases same : active = object
    · subst same
      simp only [write, Memory.withObject, update_self]
      exact timely
    · simp [write, Memory.withObject, update_of_ne same]
  | load object items =>
    cases came
    intro active found
    refine ⟨active, found, ?_⟩
    by_cases same : active = object
    · subst same
      simp [load, Memory.withObject]
    · simp [load, Memory.withObject, update_of_ne same]
  | allocate =>
    cases came
    intro active found
    obtain ⟨object, isActive, made, -⟩ := held.active
    cases found.symm.trans isActive
    refine ⟨active, (update_of_ne timely ..).trans found, ?_⟩
    simp [allocate, Memory.withObject, update_of_ne (Nat.ne_of_lt made)]
  | cutOver _ object =>
    cases came
    exact fun active found => ⟨object, timely.1, timely.2 active found⟩
  | discard =>
    cases came
    exact advances_of_same rfl (update_of_ne timely ..)
  | retire generation =>
    have came : retireGeneration opts generation mem = (reply, memory') := came
    obtain ⟨objects, -, active⟩ := retireGeneration_quiet opts generation mem
    rw [came] at objects active
    exact advances_of_same objects active
  | notePage object page =>
    have came : notePage object page mem = (reply, memory') := came
    obtain ⟨objects, -, gens, active⟩ := notePage_quiet object page mem
    rw [came] at objects gens active
    exact advances_of_same objects (by rw [gens, active])
  | noteCatchUp object page =>
    have came : noteCatchUp object page mem = (reply, memory') := came
    obtain ⟨objects, -, gens, active⟩ := noteCatchUp_quiet object page mem
    rw [came] at objects gens active
    exact advances_of_same objects (by rw [gens, active])
  | _ =>
    cases came
    exact advances_of_same rfl rfl

end

section
variable {system : System Document}

theorem keeps_inStep (opts : RuntimeOptions) (evidence : Record (StoredDocument Document) → RebuildValidation)
    (source : Source Document) : Crowd.Keeps (server opts evidence) (Operation.body opts) (conduct source.reckoning)
      (InStep source) (TimelyStep source) fun _ => .idle where
  conducted := conducted source.reckoning opts
  start sys phases caller op conducted held vacant _ := by
    have none := (conducted.present caller).mp vacant
    have known : ∀ other operation' phase, update phases caller (some (op, .idle))
        other = some (operation', phase) → phase = .idle ∨ phases other = some (operation', phase) := by
      intro other operation' phase there
      rw [update_apply] at there
      split at there
      · exact .inl (Prod.mk.inj (some.inj there)).2.symm
      · exact .inr there
    refine ⟨held.active, ?_, ?_, ?_⟩
    · intro other operation' phase there
      rcases known other operation' phase there with rfl | before
      · trivial
      · exact held.fits other operation' phase before
    · intro other operation' phase obj there loading
      rcases known other operation' phase there with rfl | before
      · cases loading
      · exact held.inactive other operation' phase obj before loading
    · intro first second operation₁ operation₂ phase₁ phase₂ obj differ one two loading
      rcases known first operation₁ phase₁ one with rfl | before₁
      · cases loading
      rcases known second operation₂ phase₂ two with rfl | before₂
      · nofun
      · exact held.alone first second operation₁ operation₂ phase₁ phase₂ obj differ before₁ before₂ loading
  call sys phases caller answer op phase req rest _ held here running permitted allowed := by
    obtain ⟨told, timely⟩ := allowed op req rest running
    have answered : answers source.reckoning req
        ((server opts evidence).answer req answer sys.world).1 := answers_told told
    exact ⟨answered, held.called here permitted answered timely rfl⟩
  leave mem phases caller held := by
    have known : ∀ other op phase, update phases caller none other =
        some (op, phase) → phases other = some (op, phase) := by
      intro other op phase there
      rw [update_apply] at there
      split at there
      · cases there
      · exact there
    exact ⟨held.active, fun _ _ _ there => held.fits _ _ _ (known _ _ _ there),
      fun _ _ _ _ there => held.inactive _ _ _ _ (known _ _ _ there),
      fun _ _ _ _ _ _ _ differ one two => held.alone _ _ _ _ _ _ _ differ (known _ _ _ one) (known _ _ _ two)⟩

theorem next_advances (kept : sys.Kept (conduct source.reckoning) (InStep source))
    (timely : TimelyStep source sys event) : Advances sys.world (next opts evidence sys event).world := by
  obtain ⟨_, _, held⟩ := kept
  unfold next Crowd.advance
  split
  · split <;> exact .refl _
  · next caller answer =>
    split
    · next op req rest running => exact step_advances held (timely _ _ _ running).2 rfl
    · exact .refl _
    · exact .refl _
  · exact .refl _

/-- What a search finds: the documents and the checkpoint of the active generation. -/
def exposed (memory : Memory Document) : Option (Record (StoredDocument Document) × Nat) :=
  (memory.generations memory.activeGeneration).map fun object =>
    ((memory.objects object).documents, (memory.objects object).checkpoint)

theorem exposed_of (found : mem.generations mem.activeGeneration = some obj) :
    exposed mem = some ((mem.objects obj).documents, (mem.objects obj).checkpoint) := by
  unfold exposed
  rw [found]
  rfl

/-- In a timely run the documents that a search finds follow the history, and their checkpoint never
goes back. -/
theorem follows_history (opts : RuntimeOptions) (evidence : Record (StoredDocument Document) → RebuildValidation)
    (source : Source Document) (mem : Memory Document)
    (active : ∃ obj, mem.generations mem.activeGeneration = some obj ∧ Whole source mem obj)
    (earlier later : List (Event Document))
    (each : EachStep (next opts evidence) (TimelyStep source) { world := mem } (earlier ++ later)) :
    ∃ before after, exposed (runFrom (next opts evidence) { world := mem } earlier).world = some before ∧
      exposed (runFrom (next opts evidence) { world := mem } (earlier ++ later)).world = some after ∧
      source.Holds after.1 after.2 ∧ before.2 ≤ after.2 := by
  have keeps := keeps_inStep opts evidence source
  have start : Crowd.Kept (conduct source.reckoning) (InStep source) ({ world := mem } : System Document) :=
    kept_empty ⟨active, by simp, by simp, by simp⟩
  obtain ⟨first, second⟩ := eachStep_append.mp each
  have kept := keeps.run start first
  have steps := eachStep_of_steps _ (fun _ event held allowed => keeps.advance event held allowed) kept second
  have advances := relates_of_steps (fun sys after : System Document => Advances sys.world after.world)
    (fun _ => .refl _) Advances.trans (fun _ _ held => next_advances held.1 held.2) steps
  obtain ⟨_, -, held⟩ := kept
  obtain ⟨obj, found, -⟩ := held.active
  obtain ⟨_, -, held'⟩ := keeps.run start each
  obtain ⟨_, found', whole⟩ := held'.active
  rw [runFrom_append] at found' whole ⊢
  obtain ⟨_, isReached, further⟩ := advances obj found
  cases found'.symm.trans isReached
  exact ⟨_, _, exposed_of found, exposed_of found', whole.2, further⟩

end
end Applik8s.Search.Deterministic

namespace Applik8s.Search
open Lib
variable {Document : Type}

def emptyHistory : Source Unit where
  truth _ _ := none
  frontier _ := 0
  delivered _ _ _ := False
  delivered_none _ _ := id

theorem postgres_told (req : Postgres.Request Unit) : Postgres.Told emptyHistory req (Postgres.emptySources req) := by
  cases req with
  | affectedRoots => exact fun _ _ differ => absurd rfl differ
  | hydrate => exact fun _ _ => rfl
  | openSnapshot => rfl
  | readSnapshot => exact ⟨nofun, fun _ present => absurd rfl present⟩
  | _ => trivial

theorem rebuildRun_told : EachStep (Postgres.next Postgres.firstOptions fun _ => "")
    (Postgres.ToldStep emptyHistory) { world := Postgres.firstWorld } Postgres.rebuildRun := by
  have covered : EachStep (Postgres.next Postgres.firstOptions fun _ => "")
      (fun sys _ => sys.Asks 0 (Postgres.Covered sys.world.tables))
      { world := Postgres.firstWorld } Postgres.rebuildRun := by decide +kernel
  refine covered.imp fun event member sys asks => ?_
  rcases List.mem_cons.mp member with rfl | step
  · trivial
  · rw [List.eq_of_mem_replicate step]
    exact fun call req rest running => ⟨postgres_told req, asks call req rest running⟩

namespace Deterministic

def firstMemory : Memory Unit where
  generations name := if name = "initial" then some 0 else none
  objects _ := ⟨[], [], 0⟩
  allocated := 1
  activeGeneration := "initial"
  rebuildingGeneration := none
  retentionFloor := 0
  sourceHighWatermark := 0
  lastAppliedRecordedAt := none
  projectionState := .current
  previousGenerations := []

def emptyAnswers : (request : Request Unit) → request.Result
  | .enter _ => none
  | .current => (0, 0)
  | .admitChange _ _ => true
  | .checkpointOf _ => 0
  | .allocate _ _ => 0
  | .readValidation _ => ⟨0, "", []⟩
  | .cutOver _ _ => ("", 0, 0)
  | .readChanges _ _ => ⟨[], 0, 0, true⟩
  | .affectedRoots _ _ => ⟨[], true⟩
  | .hydrate _ _ => []
  | .openSnapshot => ⟨0, "snapshot"⟩
  | .readSnapshot _ _ _ => ⟨[], none, true⟩
  | .markLagging | .write _ _ _ _ | .notePage _ _ | .noteCatchUp _ _ | .enterRebuild _ | .load _ _
  | .discard _ | .retire _ | .closeSnapshot _ | .validate _ => ()

theorem told (req : Request Unit) : Told emptyHistory req (emptyAnswers req) := by
  cases req with
  | affectedRoots => exact fun _ _ differ => absurd rfl differ
  | hydrate => exact fun _ _ => rfl
  | openSnapshot => rfl
  | readSnapshot => exact ⟨nofun, fun _ present => absurd rfl present⟩
  | _ => trivial

def answered (caller : Nat) : Event Unit := .step caller ⟨false, emptyAnswers⟩

def changeAt (position : Nat) : CommittedChange :=
  { id := if position = 1 then "change-1" else "change-2", sourceModel := "Account", sourceIdentity := "a", commitPosition := position
    transactionId := "t", schemaRevision := "1", recordedAt := "2026-01-01T00:00:00.000Z" }

/-- A change applied from its start to its write, in four steps. -/
def applyRun (caller position : Nat) : List (Event Unit) :=
  .start caller (.apply (changeAt position)) :: List.replicate 4 (answered caller)

def noEvidence (_ : Record (StoredDocument Unit)) : RebuildValidation := ⟨0, "", []⟩

theorem applyRun_timely : EachStep (next Postgres.firstOptions noEvidence) (TimelyStep emptyHistory)
    { world := firstMemory } (applyRun 0 1) := by
  have timely : EachStep (next Postgres.firstOptions noEvidence)
      (fun sys _ => sys.Asks 0 (Timely sys.world)) { world := firstMemory }
      (applyRun 0 1) := by decide +kernel
  refine timely.imp fun event member sys asks => ?_
  rcases List.mem_cons.mp member with rfl | step
  · trivial
  · rw [List.eq_of_mem_replicate step]
    exact fun op req rest running => ⟨told req, asks op req rest running⟩

/-- The first change is delivered twice; while its second delivery awaits, the first one and the
next change are written. -/
def redelivery : List (Event Unit) :=
  [.start 1 (.apply (changeAt 1)), answered 1] ++ applyRun 0 1 ++ applyRun 2 2 ++ List.replicate 3 (answered 1)

end Deterministic

end Applik8s.Search
