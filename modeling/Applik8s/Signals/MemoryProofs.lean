import Applik8s.Signals.MemoryStore
import Applik8s.Signals.Lifecycle

/-! The memory store keeps a ledger. Between two of its stretches only the outbox can
change, and every stretch of every method leaves the ledger alone or makes one entry
in it. -/
namespace Applik8s.Signals
open Lib
open Function (update update_apply)
open MemoryStore (empty)
open Memory (await expireDue expireOne issue resolutionKey resolve setFact setInstance)
variable {host : Host} {known : Set String} {store : MemoryStore}

namespace MemoryStore

def ledger (store : MemoryStore) : Ledger where
  signals := store.byId.find?
  resolutions id key :=
    if (store.byId.find? id).isSome then store.resolutionKeys (id ++ "\x00" ++ key) else none
  facts := store.emitted

/-- The indexes of the store agree with its signals. `known` are the occurrence keys
that are ever issued. -/
structure Consistent (host : Host) (known : Set String) (store : MemoryStore) : Prop where
  orderly : store.ledger.Orderly host
  occurrences : ∀ key id, store.byOccurrence key = some id ↔
    ∃ signal, store.byId.find? id = some signal ∧ signal.occurrenceKey = key
  recorded : ∀ text action, store.resolutionKeys text = some action →
    ∃ id key, (store.byId.find? id).isSome ∧ text = id ++ "\x00" ++ key
  known : ∀ id signal, store.byId.find? id = some signal → signal.occurrenceKey ∈ known


theorem consistent_empty : Consistent host known .empty where
  orderly := by
    have same : empty.ledger = Ledger.empty := by
      have vacant : (Table.empty : Table StoredInstance).find? = fun _ => none := rfl
      simp [empty, MemoryStore.ledger, Ledger.empty, vacant]
    rw [same]
    exact Ledger.orderly_empty host
  occurrences key id := by simp [empty, Table.find?, Table.empty]
  recorded text action held := by simp [empty] at held
  known id signal held := by simp [empty, Table.find?, Table.empty] at held

variable {id : String}

section
variable (consistent : Consistent host known store)
include consistent

theorem Consistent.named (held : store.byId.find? id = some signal) :
    signal.id = id ∧ id = signalIdOf host signal.occurrenceKey :=
  consistent.orderly.named id signal held

theorem Consistent.id_length (held : (store.byId.find? id).isSome) : id.length = 64 := by
  obtain ⟨_, held⟩ := Option.isSome_iff_exists.mp held
  rw [(consistent.named held).2]
  exact stableSignalId_length host _

theorem Consistent.whenTruthy_occurrence (key : String) :
    whenTruthy (store.byOccurrence key) = store.byOccurrence key := by
  cases held : store.byOccurrence key with
  | none => rfl
  | some id =>
    obtain ⟨signal, found, _⟩ := (consistent.occurrences key id).mp held
    have long : id.length = 64 := consistent.id_length (Option.isSome_iff_exists.mpr ⟨signal, found⟩)
    have filled : id ≠ "" := by
      rintro rfl
      simp at long
    simp [whenTruthy, truthy, filled]

theorem Consistent.unrecorded (long : id.length = 64) (absent : store.byId.find? id = none) (key : String) :
    store.resolutionKeys (id ++ "\x00" ++ key) = none := by
  cases held : store.resolutionKeys (id ++ "\x00" ++ key) with
  | none => rfl
  | some action =>
    obtain ⟨_, _, present, same⟩ := consistent.recorded _ action held
    obtain ⟨rfl, _⟩ := text_inj (long.trans (consistent.id_length present).symm) same
    simp [absent] at present

end

theorem ledger_setInstance {byOccurrence : String → Option String} {outbox : Table OutboxFact}
    (unrecorded : ∀ key, store.byId.find? next.id = none → store.resolutionKeys (next.id ++ "\x00" ++ key) = none) :
    ledger { store with
      byOccurrence, outbox, byId := store.byId.put next, emitted := store.emitted ++ [fact] } =
      store.ledger.withSignal next fact := by
  have signals : (store.byId.put next).find? = update store.byId.find? next.id (some next) := by
    funext id
    rw [Table.find?_put, update_apply]
    rfl
  unfold ledger Ledger.withSignal
  simp only [signals, Ledger.mk.injEq, true_and, and_true]
  funext id key
  by_cases same : id = next.id
  · subst same
    cases present : store.byId.find? next.id with
    | none => simp [unrecorded key present]
    | some _ => simp
  · simp [same]

theorem ledger_setResolution (present : (store.byId.find? id).isSome)
    (lengths : ∀ id, (store.byId.find? id).isSome → id.length = 64) : ledger { store with
      resolutionKeys := update store.resolutionKeys (id ++ "\x00" ++ key) (some action) } =
      store.ledger.withResolution id key action := by
  unfold ledger Ledger.withResolution
  simp only [Ledger.mk.injEq, true_and, and_true]
  funext other probe
  by_cases here : (store.byId.find? other).isSome
  · by_cases same : other = id
    · subst same
      by_cases equal : probe = key <;> simp [update_apply, here, equal]
    · have apart : other ++ "\x00" ++ probe ≠ id ++ "\x00" ++ key := fun text =>
        same (text_inj ((lengths other here).trans (lengths id present).symm) text).1
      simp [update_apply, same, apart, here]
  · have other_ne : other ≠ id := by
      rintro rfl
      exact here present
    simp [update_apply, other_ne, here]

theorem Consistent.issue {signal : StoredInstance} (consistent : Consistent host known store)
    (distinct : Collisionless host known) (fresh : store.byOccurrence signal.occurrenceKey = none)
    (expected : signal.occurrenceKey ∈ known) (named : signal.id = signalIdOf host signal.occurrenceKey)
    (pending : signal.terminal = none) (outbox : Table OutboxFact) : let after : MemoryStore := { store with
      byOccurrence := update store.byOccurrence signal.occurrenceKey (some signal.id)
      byId := store.byId.put signal, outbox, emitted := store.emitted ++ [issuedFact host signal] }
    Consistent host known after ∧ store.ledger.signals signal.id = none ∧
      after.ledger = store.ledger.withSignal signal (issuedFact host signal) := by
  intro after
  have absent : store.byId.find? signal.id = none := by
    cases held : store.byId.find? signal.id with
    | none => rfl
    | some other =>
      have same : signalIdOf host signal.occurrenceKey = signalIdOf host other.occurrenceKey :=
        named.symm.trans (consistent.named held).2
      have one := distinct.occurrence expected (consistent.known _ other held) same
      have indexed := (consistent.occurrences other.occurrenceKey signal.id).mpr ⟨other, held, rfl⟩
      rw [← one, fresh] at indexed
      cases indexed
  have long : signal.id.length = 64 := by
    rw [named]
    exact stableSignalId_length host _
  have kept : after.ledger = store.ledger.withSignal signal (issuedFact host signal) :=
    ledger_setInstance fun key _ => consistent.unrecorded long absent key
  have entry : store.ledger.Entry host after.ledger := kept ▸ .issue signal absent named pending
  refine ⟨⟨Ledger.entry_orderly consistent.orderly entry, ?_, ?_, ?_⟩, absent, kept⟩
  · intro key id
    simp only [after, Table.find?_put, update_apply]
    have other : store.byOccurrence key = some id → id ≠ signal.id := by
      rintro indexed rfl
      obtain ⟨held, found, _⟩ := (consistent.occurrences key signal.id).mp indexed
      simp [absent] at found
    by_cases own : id = signal.id
    · subst own
      by_cases same : key = signal.occurrenceKey
      · simp [same, Keyed.key]
      · have nowhere : store.byOccurrence key ≠ some signal.id := fun indexed => other indexed rfl
        simp [same, nowhere, Keyed.key, Ne.symm same]
    · by_cases same : key = signal.occurrenceKey
      · have before := (consistent.occurrences key id).not.mp (by simp [same, fresh])
        simpa [same, own, Ne.symm own, Keyed.key] using before
      · simpa [same, own, Keyed.key] using consistent.occurrences key id
  · intro text action held
    obtain ⟨id, key, present, same⟩ := consistent.recorded text action held
    refine ⟨id, key, ?_, same⟩
    simp only [after, Table.find?_put]
    split <;> simp [present]
  · intro id other held
    simp only [after, Table.find?_put] at held
    split at held
    · cases held
      exact expected
    · exact consistent.known id other held

variable {cur : StoredInstance} (consistent : Consistent host known store) (held : store.byId.find? cur.id = some cur)
include consistent held

private theorem Consistent.rewrite (orderly : after.ledger.Orderly host)
    (stored : after.byId = store.byId.put { cur with terminal }) (indexed : after.byOccurrence = store.byOccurrence)
    (recorded : ∀ text action, after.resolutionKeys text = some action → store.resolutionKeys text = some action ∨ ∃ key, text = cur.id ++ "\x00" ++ key)
    : Consistent host known after := by
  have found : ∀ id, after.byId.find? id =
      if id = cur.id then some { cur with terminal } else store.byId.find? id := by
    intro id
    rw [stored, Table.find?_put]
    rfl
  refine ⟨orderly, fun key id => ?_, fun text action written => ?_, fun id signal stored => ?_⟩
  · rw [indexed, found, consistent.occurrences]
    by_cases same : id = cur.id
    · subst same
      simp [held]
    · simp [same]
  · rcases recorded text action written with before | ⟨key, rfl⟩
    · obtain ⟨id, key, present, same⟩ := consistent.recorded text action before
      refine ⟨id, key, ?_, same⟩
      rw [found]
      split <;> simp [present]
    · exact ⟨cur.id, key, by simp [found], rfl⟩
  · rw [found] at stored
    split at stored
    · cases stored
      exact consistent.known _ cur held
    · exact consistent.known id signal stored

theorem Consistent.resolve (pending : cur.terminal = none) {req : ResolutionRequest} (own : cur.id = req.id)
    (receipt : Receipt) (outbox : Table OutboxFact) : let fact := resolvedFact host cur req.action req.decidedAt
    let after : MemoryStore := { store with
      byId := store.byId.put (cur.decidedBy req receipt)
      resolutionKeys :=
        update store.resolutionKeys (resolutionKey req) (some req.action)
      outbox, emitted := store.emitted ++ [fact] }
    Consistent host known after ∧
      after.ledger = (store.ledger.withSignal (cur.decidedBy req receipt) fact).withResolution
        req.id req.idempotencyKey req.action := by
  intro fact after
  let next := cur.decidedBy req receipt
  let middle : MemoryStore := { store with
    byId := store.byId.put next, outbox, emitted := store.emitted ++ [fact] }
  have present : ∀ id, (middle.byId.find? id).isSome → (store.byId.find? id).isSome := by
    intro id
    simp only [middle, Table.find?_put]
    split
    · rename_i same
      rw [show id = cur.id from same, held]
      simp
    · exact fun stored => stored
  have here : (middle.byId.find? cur.id).isSome := by
    simp only [middle, Table.find?_put]
    rw [if_pos (show cur.id = Keyed.key next from rfl)]
    rfl
  have kept : after.ledger =
      (store.ledger.withSignal next fact).withResolution req.id req.idempotencyKey req.action := by
    have first : middle.ledger = store.ledger.withSignal next fact :=
      ledger_setInstance fun key absent => by
        have found : store.byId.find? cur.id = none := absent
        simp [held] at found
    rw [← first]
    rw [own] at here
    exact ledger_setResolution here fun id stored => consistent.id_length (present id stored)
  have entry : store.ledger.Entry host after.ledger := by
    rw [kept, ← own]
    exact .resolve cur req.action req.input req.actor receipt req.decidedAt req.idempotencyKey held pending
  refine ⟨consistent.rewrite held (Ledger.entry_orderly consistent.orderly entry) rfl rfl ?_, kept⟩
  intro text winner written
  by_cases same : text = resolutionKey req
  · exact Or.inr ⟨req.idempotencyKey, own ▸ same⟩
  · exact Or.inl (by simpa [after, update_apply, same] using written)

theorem Consistent.expire (pending : cur.terminal = none) (expiredAt : String) (outbox : Table OutboxFact) :
    let after : MemoryStore := { store with
      byId := store.byId.put (cur.lapsedAt expiredAt)
      outbox, emitted := store.emitted ++ [expiredFact host cur expiredAt] }
    Consistent host known after ∧ after.ledger =
      store.ledger.withSignal (cur.lapsedAt expiredAt) (expiredFact host cur expiredAt) := by
  intro after
  have kept : after.ledger = store.ledger.withSignal (cur.lapsedAt expiredAt) (expiredFact host cur expiredAt) :=
    ledger_setInstance fun key absent => by
      have found : store.byId.find? cur.id = none := absent
      simp [held] at found
  have entry : store.ledger.Entry host after.ledger := kept ▸ .expire cur expiredAt held pending
  exact ⟨consistent.rewrite held (Ledger.entry_orderly consistent.orderly entry) rfl rfl
    fun text action written => Or.inl written, kept⟩

end MemoryStore

/-! ### The methods, stretch by stretch -/

open MemoryStore (Consistent)

def Undisturbed (before after : MemoryStore) : Prop := ∃ outbox, after = { before with outbox }

theorem Undisturbed.refl (store : MemoryStore) : Undisturbed store store := ⟨store.outbox, rfl⟩

theorem Undisturbed.trans (one : Undisturbed first second) (two : Undisturbed second third)
    : Undisturbed first third := by
  obtain ⟨_, rfl⟩ := one
  obtain ⟨outbox, rfl⟩ := two
  exact ⟨outbox, rfl⟩

variable {before after : MemoryStore}

theorem Undisturbed.consistent (still : Undisturbed before after)
    (consistent : Consistent host known before) : Consistent host known after := by
  obtain ⟨_, rfl⟩ := still
  exact ⟨consistent.orderly, consistent.occurrences, consistent.recorded, consistent.known⟩

theorem Undisturbed.ledger (still : Undisturbed before after) : after.ledger = before.ledger := by
  obtain ⟨_, rfl⟩ := still
  rfl

def Advances (host : Host) (known : Set String) (operation : Operation) (before after : MemoryStore) :
    Prop :=
  Consistent host known before → Consistent host known after ∧
    (after.ledger = before.ledger ∨ operation.Enters host before.ledger after.ledger)

theorem Advances.refl (op : Operation) (store : MemoryStore) :
    Advances host known op store store := fun consistent => ⟨consistent, Or.inl rfl⟩

section
variable {α : Type} {entry world : MemoryStore} {next : Option String → MemoryProgram α}

@[simp] theorem sound_occurrence :
    Sound memoryFloor Undisturbed step close entry (Memory.occurrence key >>= next) world ↔
      Sound memoryFloor Undisturbed step close entry (next (world.byOccurrence key)) world := sound_call rfl

@[simp] theorem sound_instanceOf {id : String} {next : Option StoredInstance → MemoryProgram α} :
    Sound memoryFloor Undisturbed step close entry (Memory.instanceOf id >>= next) world ↔
      Sound memoryFloor Undisturbed step close entry (next (world.byId.find? id)) world := sound_call rfl

@[simp] theorem sound_instances {next : List StoredInstance → MemoryProgram α} :
    Sound memoryFloor Undisturbed step close entry (Memory.instances >>= next) world ↔
      Sound memoryFloor Undisturbed step close entry (next world.byId.rows) world := sound_call rfl

@[simp] theorem sound_resolution :
    Sound memoryFloor Undisturbed step close entry (Memory.resolution key >>= next) world ↔
      Sound memoryFloor Undisturbed step close entry (next (world.resolutionKeys key)) world := sound_call rfl

variable {next : Unit → MemoryProgram α}

@[simp] theorem sound_setOccurrence {id : String} :
    Sound memoryFloor Undisturbed step close entry (Memory.setOccurrence key id >>= next) world ↔
      Sound memoryFloor Undisturbed step close entry (next ())
        { world with byOccurrence := update world.byOccurrence key (some id) } := sound_call rfl

@[simp] theorem sound_setInstance :
    Sound memoryFloor Undisturbed step close entry (setInstance signal >>= next) world ↔
      Sound memoryFloor Undisturbed step close entry (next ()) { world with byId := world.byId.put signal } := sound_call rfl

@[simp] theorem sound_setResolution :
    Sound memoryFloor Undisturbed step close entry (Memory.setResolution key action >>= next) world ↔
      Sound memoryFloor Undisturbed step close entry (next ())
        { world with resolutionKeys := update world.resolutionKeys key (some action) } :=
  sound_call rfl

@[simp] theorem sound_setFact :
    Sound memoryFloor Undisturbed step close entry (setFact fact >>= next) world ↔
      Sound memoryFloor Undisturbed step close entry (next ())
        { world with outbox := world.outbox.put fact, emitted := world.emitted ++ [fact] } := sound_call rfl

theorem sound_await {step : MemoryStore → MemoryStore → Prop}
    {close : Except Failure α → MemoryStore → MemoryStore → Prop} {β : Type} {out : Except Failure β}
    {next : β → MemoryProgram α} : Sound memoryFloor Undisturbed step close entry (await out >>= next) world ↔
      step entry world ∧ ∀ later, Undisturbed world later → match out with
        | .ok value => Sound memoryFloor Undisturbed step close later (next value) later
        | .error err => close (.error err) later later := by
  refine sound_bind.trans ((sound_yield rfl).trans ?_)
  refine and_congr_right fun _ => forall₂_congr fun later _ => ?_
  cases out <;> rfl
end

abbrev closes (host : Host) (known : Set String) (operation : Operation) :
    Except Failure Answer → MemoryStore → MemoryStore → Prop :=
  fun _ entry final => Advances host known operation entry final

/-- How a call ends: its last stretch went as it may, and it answers what it should. -/
abbrev answers (host : Host) (known : Set String) (operation : Operation) :
    Except Failure Answer → MemoryStore → MemoryStore → Prop :=
  fun result entry final => Advances host known operation entry final ∧
    ∀ answer, result = .ok answer → operation.Answered host final.ledger.signals answer

open Advances (refl)

theorem issue_sound (distinct : Collisionless host known) (expected : req.occurrenceKey ∈ known)
    (consistent : Consistent host known store) :
    Sound memoryFloor Undisturbed (Advances host known (.issue req authorize))
      (answers host known (.issue req authorize)) store (issue host req authorize) store := by
  unfold issue
  rw [sound_occurrence, consistent.whenTruthy_occurrence]
  cases indexed : store.byOccurrence req.occurrenceKey with
  | some id =>
    rw [sound_instanceOf]
    obtain ⟨prev, held, own⟩ := (consistent.occurrences _ id).mp indexed
    rw [held]
    refine ⟨refl _ _, fun answer same => ?_⟩
    cases same
    refine ⟨prev, true, prev.terminal, rfl, own, ?_⟩
    rw [← own, ← (consistent.named held).2]
    exact held
  | none =>
    refine sound_await.mpr ⟨refl _ _, fun later still => ?_⟩
    cases allowed : authorize req (signalIdOf host req.occurrenceKey) with
    | error => exact ⟨refl _ _, nofun⟩
    | ok receipt =>
      have here := still.consistent consistent
      have fresh : later.byOccurrence req.occurrenceKey = none := by
        obtain ⟨_, rfl⟩ := still
        exact indexed
      let signal := issuedInstance req (signalIdOf host req.occurrenceKey) receipt
      have written := here.issue distinct (show later.byOccurrence signal.occurrenceKey = none from fresh)
        expected rfl rfl (later.outbox.put (issuedFact host signal))
      have entered : (Operation.issue req authorize).Enters host later.ledger
          (later.ledger.withSignal signal (issuedFact host signal)) := .issue written.2.1 allowed _ _ rfl
      refine ⟨fun _ => ⟨written.1, Or.inr (written.2.2 ▸ entered)⟩, fun answer same => ?_⟩
      cases same
      refine ⟨signal, false, none, rfl, rfl, ?_⟩
      exact (congrFun (congrArg Ledger.signals written.2.2) _).trans (Function.update_self ..)

private theorem Undisturbed.found {id : String} (still : Undisturbed before after)
    (held : before.byId.find? id = some signal) : after.byId.find? id = some signal := by
  obtain ⟨_, rfl⟩ := still
  exact held

theorem resolve_sound (consistent : Consistent host known store) :
    Sound memoryFloor Undisturbed (Advances host known (.resolve request authorize finalize))
      (closes host known (.resolve request authorize finalize)) store
      (resolve host request authorize finalize) store := by
  unfold resolve
  rw [sound_resolution, sound_instanceOf]
  cases held : store.byId.find? request.id with
  | none => exact refl _ _
  | some cur =>
    have own : cur.id = request.id := (consistent.named held).1
    dsimp only
    split
    · exact refl _ _
    split
    · exact refl _ _
    · rename_i open_
      split
      · exact refl _ _
      rename_i declared
      have pending : cur.terminal = none := by simpa using open_
      -- from here on the call holds a receipt, whoever gave it
      have concludes : ∀ entry world receipt, Undisturbed store world →
          authorizedReceipt request authorize cur = .ok receipt →
          Advances host known (.resolve request authorize finalize) entry world →
          Sound memoryFloor Undisturbed (Advances host known (.resolve request authorize finalize))
            (closes host known (.resolve request authorize finalize)) entry
            (receipt.elim (.throw (.error s!"Signal {request.id} resolution requires an authorization receipt."))
              fun receipt => do
                await (finalize cur (.resolved request.action request.actor receipt request.decidedAt))
                setInstance (cur.decidedBy request receipt)
                Memory.setResolution (resolutionKey request) request.action
                setFact (resolvedFact host cur request.action request.decidedAt)
                return .resolved (cur.decidedBy request receipt) .none) world := by
        intro entry world receipt still allowed went
        cases receipt with
        | none => exact went
        | some receipt =>
          refine sound_await.mpr ⟨went, fun later further => ?_⟩
          cases final : finalize cur
              (.resolved request.action request.actor receipt request.decidedAt) with
          | error => exact refl _ _
          | ok =>
            simp only [sound_setInstance, sound_setResolution, sound_setFact, sound_pure]
            intro here
            have found := (still.trans further).found held
            have written := here.resolve (own ▸ found) pending own receipt
              (later.outbox.put (resolvedFact host cur request.action request.decidedAt))
            refine ⟨written.1, Or.inr ?_⟩
            rw [written.2]
            exact .resolve found own pending (by simpa using declared) allowed final
      cases authorize with
      | none =>
        have done := concludes store store request.receipt (.refl _) rfl (refl _ _)
        revert done
        cases request.receipt <;> exact id
      | some authorize =>
        refine sound_await.mpr ⟨refl _ _, fun later still => ?_⟩
        cases allowed : authorize request cur with
        | error => exact refl _ _
        | ok receipt =>
          have done := concludes later later receipt still allowed (refl _ _)
          cases receipt <;> exact done

variable {operation : Operation}

theorem expireOne_sound {id : String}
    (enters : ∀ ledger : Ledger, ∀ cur, ledger.signals id = some cur → cur.id = id → cur.terminal = none → finalize cur (.expired expiredAt) = .ok () → op.Enters host ledger (ledger.withSignal (cur.lapsedAt expiredAt) (expiredFact host cur expiredAt)))
    (went : Advances host known op entry store) (consistent : Consistent host known store)
    : Sound memoryFloor Undisturbed (Advances host known op)
      (fun _ entry world => Advances host known op entry world ∧ Consistent host known world) entry
      (expireOne host id expiredAt finalize) store := by
  unfold expireOne
  rw [sound_instanceOf]
  cases held : store.byId.find? id with
  | none => exact ⟨went, consistent⟩
  | some cur =>
    have own : cur.id = id := (consistent.named held).1
    dsimp only
    split
    · exact ⟨went, consistent⟩
    rename_i open_
    have pending : cur.terminal = none := by simpa using open_
    refine sound_await.mpr ⟨went, fun later still => ?_⟩
    have here := still.consistent consistent
    cases final : finalize cur (.expired expiredAt) with
    | error => exact ⟨refl _ _, here⟩
    | ok =>
      simp only [sound_setInstance, sound_setFact, sound_pure]
      have found := still.found held
      have written := here.expire (own ▸ found) pending expiredAt (later.outbox.put (expiredFact host cur expiredAt))
      refine ⟨fun _ => ⟨written.1, Or.inr ?_⟩, written.1⟩
      rw [written.2]
      exact enters later.ledger cur found own pending final

theorem expireDue_sound (consistent : Consistent host known store) :
    Sound memoryFloor Undisturbed (Advances host known (.expireDue now limit finalize))
      (closes host known (.expireDue now limit finalize)) store (expireDue host now limit finalize) store := by
  unfold expireDue
  rw [sound_bind, sound_check]
  cases assertSignalBatchSize limit with
  | error => exact refl _ _
  | ok =>
    rw [sound_instances]
    refine sound_bind.mpr ?_
    refine Sound.weaken (fun _ _ stepped => stepped) (fun res entry world closed => ?_)
      (sound_forEach (fun entry world => Advances host known (.expireDue now limit finalize) entry world ∧
          Consistent host known world)
        (fun _ entry world => Advances host known (.expireDue now limit finalize) entry world)
        ⟨refl _ _, consistent⟩ fun signal _ entry world here => ?_)
    · cases res with
      | ok => exact closed.1
      | error => exact closed
    refine sound_bind.mpr (Sound.weaken (fun _ _ stepped => stepped) (fun res entry world closed => ?_)
      (expireOne_sound (fun ledger cur held own pending final => .sweep held own pending final) here.1 here.2))
    cases res with
    | ok => exact closed
    | error => exact closed.1

/-! ### The store as a whole -/

theorem acknowledge_undisturbed (ids : List String) (store : MemoryStore) :
    Undisturbed store (store.acknowledge ids) := ⟨_, rfl⟩

theorem operation_sound (distinct : Collisionless host known)
    (expected : op.issues ⊆ known) (consistent : Consistent host known store) :
    Sound memoryFloor Undisturbed (Advances host known op) (answers host known op) store
      (op.inMemory host) store := by
  cases op with
  | issue => exact issue_sound distinct (expected rfl) consistent
  | resolve =>
    exact Sound.weaken (fun _ _ stepped => stepped) (fun _ _ _ closed => ⟨closed, fun _ _ => trivial⟩)
      (resolve_sound consistent)
  | expire =>
    exact Sound.weaken (fun _ _ stepped => stepped) (fun _ _ _ closed => ⟨closed.1, fun _ _ => trivial⟩)
      (expireOne_sound (fun ledger cur held own pending final => .expire held own pending final) (refl _ _) consistent)
  | expireDue =>
    exact Sound.weaken (fun _ _ stepped => stepped) (fun _ _ _ closed => ⟨closed, fun _ _ => trivial⟩)
      (expireDue_sound consistent)

/-- Since a call was taken up nothing was taken back, and nothing changed about a signal
one of its callbacks fails for. -/
def Respects (host : Host) (operation : Operation) (origin now : MemoryStore) : Prop :=
  origin.ledger.Follows now.ledger ∧
    ∀ id, operation.Refuses host origin.ledger id → Ledger.Unchanged id origin.ledger now.ledger

theorem Advances.respects (consistent : Consistent host known before) (since : Respects host op origin before)
    (advances : Advances host known op before after) : Respects host op origin after := by
  obtain ⟨_, same | enters⟩ := advances consistent
  · unfold Respects
    rw [same]
    exact since
  · refine ⟨since.1.trans (Ledger.entry_follows consistent.orderly enters.entry), fun id refuses => ?_⟩
    have before := since.2 id refuses
    exact before.trans (enters.unchanged (refuses.congr before.signals))

def memoryDiscipline (host : Host) (known : Set String) (distinct : Collisionless host known)
    (watch : Watch host known) : Discipline memoryFloor (Operation.inMemory host) where
  submits operation := operation.issues ⊆ known
  takes operation store := watch.takes operation store.ledger.signals
  invariant store := Consistent host known store ∧ watch.holds store.ledger.signals
  rely := Undisturbed
  step := Advances host known
  since := Respects host
  post operation result final := ∀ answer, result = .ok answer → operation.Answered host final.ledger.signals answer
  disturbs _ _ _ := True
  rely_refl := .refl
  rely_trans := .trans
  disturbed _ kept :=
    ⟨fun _ => acknowledge_undisturbed _ _, (acknowledge_undisturbed _ _).consistent kept.1, kept.2⟩
  since_start _ store _ := ⟨.refl _, fun id _ => .refl id _⟩
  since_rely since still := by
    unfold Respects
    rw [still.ledger]
    exact since
  since_step kept since advances := advances.respects kept.1 since
  step_keeps expected taken since kept advances := by
    obtain ⟨consistent, same | enters⟩ := advances kept.1
    · exact ⟨consistent, same ▸ kept.2⟩
    · exact ⟨consistent, watch.keeps expected taken since.1 kept.1.orderly kept.2 enters⟩
  sound operation store expected _ kept := operation_sound distinct expected kept.1

end Applik8s.Signals
