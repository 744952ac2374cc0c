import Applik8s.QueryClient.Store

/-! An entry of the query client loses no change, as long as five kinds of steps do not come at the wrong
time. A snapshot that is stored as fresh was requested after all that the entry has been told of, by its
epoch; what else calls the entry fresh, and what else leaves it without a request, are these steps. -/
namespace Applik8s.QueryStore
open Function (update update_of_ne update_self)
open Lib List Option Nat
variable {Value Cursor : Type} {server : Server Value Cursor} {world after : World Value Cursor}

section
variable (server : Server Value Cursor) (world : World Value Cursor)

def World.held : Nat := (world.entry.state.value.map server.reflects).getD 0

/-- The value reflects all that the entry has been told of and all below the cursor it will resume from. -/
def World.Current : Prop :=
  world.told ≤ world.held server ∧
    ∀ cursor, world.entry.state.cursor = some cursor → server.position cursor ≤ world.held server

def World.InFlight : Prop := ∃ epoch eventCursor, world.entry.refresh = some (.requested epoch eventCursor)

/-- A request is over but for its `finally`. -/
def World.Settling : Prop := world.entry.refresh = some .settled
def World.Scheduled : Prop := ∃ timer, world.timers timer = some .snapshotRefresh

/-- Nothing is shown as fresh that misses a change, and what is shown to someone and misses one is about to
be replaced. -/
structure World.Sound : Prop where
  fresh : world.entry.state.phase = .ready → world.entry.state.stale = false → world.Current server
  attended : world.entry.listeners ≠ [] → ¬ world.Current server → world.InFlight ∨ world.Scheduled

/-- What the server does: a snapshot reflects all that was committed before it was requested, and its cursor
is not after it; a stream delivers in order an invalidate for every later change or a reset, and keepalives
that cover only what it has delivered. Timers fire when nothing is left to do but to await. -/
def Served : Step Value Cursor → Prop
  | .hydrate snapshot =>
    server.position snapshot.cursor ≤ server.reflects snapshot.value ∧ server.reflects snapshot.value ≤ world.committed
  | .respond (.ok snapshot) =>
    world.since ≤ server.position snapshot.cursor ∧ server.position snapshot.cursor ≤ server.reflects snapshot.value ∧
      server.reflects snapshot.value ≤ world.committed
  | .event controller event upTo => ∀ delivered, world.streams controller = some delivered →
    event.query = world.entry.query ∧
      match event with
      | .invalidate id _ _ cursor => id = server.identify cursor ∧ delivered < server.position cursor ∧
        server.position cursor ≤ world.committed
      | .keepalive id _ _ cursor => (∀ other, server.identify other ≠ id) ∧ server.position cursor ≤ delivered
      | .reset id _ => id ∉ world.entry.seenEvents ∧ (∀ other, server.identify other ≠ id) ∧ upTo ≤ world.committed
  | .fire _ => ¬ world.Settling
  | _ => True

def Careful : Step Value Cursor → Prop
  -- No snapshot is hydrated that misses what the entry has been told of.
  | .hydrate snapshot => world.entry.hydrates snapshot → world.told ≤ server.reflects snapshot.value
  -- No request fails while a timer that only reconnects has the slot, unless nothing is missed.
  | .respond result => ∀ message, world.InFlight → world.entry.identify result = .error message →
    world.entry.listeners ≠ [] → world.entry.reconnectTimer ≠ none → world.Current server ∨ world.Scheduled
  -- Nobody comes back, and nothing is told, between the end of a request and its `finally`.
  | .subscribe _ => world.Settling → world.entry.listeners = [] → world.Current server ∨ world.Scheduled
  | .event controller event upTo => ∀ delivered, world.streams controller = some delivered →
    match world.entry.ignores event, event with
    | false, .invalidate _ _ _ cursor => world.Settling →
      world.told ≤ world.held server ∧ server.position cursor ≤ world.held server ∨ world.Scheduled
    | false, .reset _ _ => world.Settling → world.told ≤ world.held server ∧ upTo ≤ world.held server ∨
      ∃ timer, world.entry.reconnectTimer ≠ some timer ∧ world.timers timer = some .snapshotRefresh
    -- No keepalive comes while a change is missed and no snapshot is awaited.
    | false, .keepalive _ _ _ cursor =>
      (world.entry.refresh = none → world.told ≤ world.held server ∧ server.position cursor ≤ world.held server) ∧
      (server.position cursor ≤ world.held server ∨ world.InFlight ∨ world.Scheduled)
    -- No invalidate is ignored for its sequence that says something new.
    | true, .invalidate id _ _ cursor => id ∉ world.entry.seenEvents → server.position cursor ≤ world.told ∨
      (world.entry.state.phase = .ready → world.entry.state.stale = false →
        server.position cursor ≤ world.held server) ∧
      (server.position cursor ≤ world.held server ∨ world.InFlight ∨ world.Scheduled) ∧
      ∀ eventCursor, world.entry.refresh = some (.requested world.entry.invalidationEpoch eventCursor) →
        server.position cursor ≤ world.since
    | _, _ => True
  | _ => True

end

/-- What holds whatever is shown: streams are the entry's own and someone listens; only an invalidate that
the entry was told of was seen; and a request of the present epoch was made after all it was told of. -/
structure World.Ordered (server : Server Value Cursor) (world : World Value Cursor) : Prop where
  streaming : ∀ controller delivered, world.streams controller = some delivered →
    world.entry.controller = some controller
  listening : world.entry.controller ≠ none → world.entry.listeners ≠ []
  unset : ∀ timer, world.timersSet ≤ timer → world.timers timer = none
  committed : world.told ≤ world.committed
  epochs : ∀ epoch eventCursor, world.entry.refresh = some (.requested epoch eventCursor) →
    epoch ≤ world.entry.invalidationEpoch
  requested : ∀ eventCursor, world.entry.refresh = some (.requested world.entry.invalidationEpoch eventCursor) →
      world.told ≤ world.since
  seen : ∀ cursor, server.identify cursor ∈ world.entry.seenEvents → server.position cursor ≤ world.told

section
variable (ordered : world.Ordered server)
include ordered

namespace World

theorem Ordered.setTimer (timer : Timer) : (world.setTimer timer).Ordered server where
  streaming := ordered.streaming
  listening := ordered.listening
  unset later le := by
    change update world.timers world.timersSet (some timer) later = none
    have le : world.timersSet + 1 ≤ later := le
    rw [update_of_ne (Nat.ne_of_gt le)]
    exact ordered.unset later (Nat.le_of_lt le)
  committed := ordered.committed
  epochs := ordered.epochs
  requested := ordered.requested
  seen := ordered.seen

theorem Ordered.without (timer : Nat) (reconnectTimer : Option Nat) : Ordered server { world with
      timers := update world.timers timer none
      entry := { world.entry with reconnectTimer } } where
  streaming := ordered.streaming
  listening := ordered.listening
  unset later le := by
    by_cases same : later = timer
    · exact same ▸ update_self ..
    · exact (update_of_ne same ..).trans (ordered.unset later le)
  committed := ordered.committed
  epochs := ordered.epochs
  requested := ordered.requested
  seen := ordered.seen

theorem Ordered.clearTimer : world.clearTimer.Ordered server := by
  unfold World.clearTimer
  split
  · exact ordered.without _ none
  · exact ordered

theorem Ordered.request : world.request.Ordered server where
  streaming := ordered.streaming
  listening := ordered.listening
  unset := ordered.unset
  committed := ordered.committed
  epochs epoch eventCursor is := by
    obtain ⟨rfl, -⟩ := Refresh.requested.inj (some.inj is)
    exact Nat.le_refl _
  requested _ _ := ordered.committed
  seen := ordered.seen

theorem Ordered.refresh : world.refresh.Ordered server := by
  unfold World.refresh
  split
  · exact ordered
  · have cleared := ordered.clearTimer
    exact Ordered.request { cleared with }

theorem Ordered.connect : (world.connect server).Ordered server := by
  unfold World.connect
  split
  · next cursor absent here =>
    split
    · exact ordered
    next someone =>
    refine { ordered with streaming := fun ctl delivered is => ?_, listening := fun _ => someone }
    change update world.streams world.controllers _ ctl = some delivered at is
    by_cases same : ctl = world.controllers
    · subst same
      rfl
    rw [update_of_ne same] at is
    have := ordered.streaming ctl delivered is
    rw [absent] at this
    cases this
  · exact ordered

theorem Ordered.over (ctl : Nat) : Ordered server { world with streams := update world.streams ctl none } := by
  refine { ordered with streaming := fun other delivered is => ?_ }
  change update world.streams ctl none other = some delivered at is
  by_cases same : other = ctl
  · rw [same, update_self] at is
    cases is
  · rw [update_of_ne same] at is
    exact ordered.streaming other delivered is

end World
end

theorem World.abort_streams (world : World Value Cursor) (streaming : ∀ ctl delivered,
    world.streams ctl = some delivered → world.entry.controller = some ctl) (ctl : Nat) :
    world.abort.streams ctl = none := by
  unfold World.abort
  split
  · next own is =>
    dsimp only
    by_cases same : ctl = own
    · exact same ▸ update_self ..
    rw [update_of_ne same]
    by_contra some_
    obtain ⟨delivered, here⟩ := ne_none_iff_exists'.mp some_
    exact same (some.inj ((streaming ctl delivered here).symm.trans is))
  · next is =>
    by_contra some_
    obtain ⟨delivered, here⟩ := ne_none_iff_exists'.mp some_
    have := streaming ctl delivered here
    rw [is] at this
    cases this

theorem World.Ordered.disconnect (ordered : world.Ordered server) (listeners : List Nat) :
    (World.disconnect { world with entry := { world.entry with listeners } }).Ordered server := by
  refine World.Ordered.clearTimer ⟨fun ctl delivered is => ?_, fun some_ => ?_, ?_, ?_, ?_, ?_, ?_⟩
  · have nothing := World.abort_streams { world with entry := { world.entry with listeners } } ordered.streaming ctl
    exact (some_ne_none _ (is.symm.trans nothing)).elim
  all_goals unfold World.abort
  · unfold World.abort at some_
    split at some_
    · exact absurd rfl some_
    · next is => exact absurd is some_
  · split <;> exact ordered.unset
  · split <;> exact ordered.committed
  · split <;> exact ordered.epochs
  · split <;> exact ordered.requested
  · split <;> exact ordered.seen

/-- What the value reflects, what it must reflect, who listens and when they first did. -/
structure World.Alike (world after : World Value Cursor) : Prop where
  told : after.told = world.told
  value : after.entry.state.value = world.entry.state.value
  cursor : after.entry.state.cursor = world.entry.state.cursor
  listeners : after.entry.listeners = world.entry.listeners
  activated : after.entry.activated = world.entry.activated
  epoch : after.entry.invalidationEpoch = world.entry.invalidationEpoch

namespace World

theorem Alike.refl (world : World Value Cursor) : world.Alike world := ⟨rfl, rfl, rfl, rfl, rfl, rfl⟩

theorem Alike.current (alike : world.Alike after) : after.Current server ↔ world.Current server := by
  have held : after.held server = world.held server := by rw [held, alike.value, held]
  constructor
  · intro ⟨told, below⟩
    rw [alike.told, held] at told
    rw [alike.cursor, held] at below
    exact And.intro told below
  · intro ⟨told, below⟩
    refine And.intro ?_ ?_
    · rwa [alike.told, held]
    · rwa [alike.cursor, held]

theorem current_snapshot {snap : Snapshot Value Cursor} (told : world.told ≤ server.reflects snap.value)
    (reflected : server.position snap.cursor ≤ server.reflects snap.value)
    (entry : StoreEntry Value Cursor) (value : entry.state.value = some snap.value)
    (cursor : entry.state.cursor = some snap.cursor) : Current server { world with entry } := by
  have held : held server { world with entry } = server.reflects snap.value := by
    rw [held, value]
    rfl
  refine And.intro (held ▸ told) fun other is => ?_
  cases cursor.symm.trans is
  exact held ▸ reflected

theorem alike_clearTimer (world : World Value Cursor) : world.Alike world.clearTimer := by
  unfold clearTimer
  split <;> exact ⟨rfl, rfl, rfl, rfl, rfl, rfl⟩

theorem alike_disconnect (world : World Value Cursor) : world.Alike world.disconnect := by
  have aborted : world.Alike world.abort := by
    unfold abort
    split <;> exact ⟨rfl, rfl, rfl, rfl, rfl, rfl⟩
  have cleared := world.abort.alike_clearTimer
  exact ⟨cleared.told.trans aborted.told, cleared.value.trans aborted.value,
    cleared.cursor.trans aborted.cursor, cleared.listeners.trans aborted.listeners,
    cleared.activated.trans aborted.activated, cleared.epoch.trans aborted.epoch⟩

theorem disconnect_refresh (world : World Value Cursor) : world.disconnect.entry.refresh = world.entry.refresh := by
  unfold disconnect clearTimer abort
  split <;> split <;> rfl

theorem disconnect_state (world : World Value Cursor) : world.disconnect.entry.state = world.entry.state := by
  unfold disconnect clearTimer abort
  split <;> split <;> rfl

theorem refresh_spec (world : World Value Cursor) : world.Alike world.refresh ∧
    (world.refresh = world ∧ world.entry.refresh ≠ none ∨
      world.refresh.entry.state.stale = true ∧ ∃ eventCursor, world.refresh.entry.refresh =
        some (.requested world.entry.invalidationEpoch eventCursor)) := by
  unfold refresh
  split
  · next joined is => exact ⟨.refl _, .inl ⟨rfl, by rw [is]; nofun⟩⟩
  have cleared := world.alike_clearTimer
  refine ⟨⟨cleared.told, cleared.value, cleared.cursor, cleared.listeners, cleared.activated,
    cleared.epoch⟩, .inr ⟨rfl, world.clearTimer.entry.state.cursor, ?_⟩⟩
  rw [← cleared.epoch]
  rfl

theorem connect_spec (server : Server Value Cursor) (world : World Value Cursor) : world.Alike (world.connect server) ∧
    (world.connect server).entry.state = world.entry.state ∧
    (world.connect server).entry.refresh = world.entry.refresh ∧ (world.connect server).timers = world.timers := by
  unfold connect
  split
  · split <;> exact ⟨⟨rfl, rfl, rfl, rfl, rfl, rfl⟩, rfl, rfl, rfl⟩
  · exact ⟨.refl _, rfl, rfl, rfl⟩

theorem InFlight.settles (inFlight : world.InFlight) : ¬ world.Settling := by
  obtain ⟨_, _, is⟩ := inFlight
  intro settling
  rw [Settling, is] at settling
  cases settling

theorem Sound.refresh
    (fresh : world.entry.state.phase = .ready → world.entry.state.stale = false → world.Current server)
    (joins : world.Settling → world.entry.listeners ≠ [] → ¬ world.Current server → world.Scheduled) :
    world.refresh.Sound server := by
  obtain ⟨_, ⟨same, joined⟩ | ⟨stale, eventCursor, is⟩⟩ := world.refresh_spec
  · rw [same]
    refine ⟨fresh, fun someone misses => ?_⟩
    cases req : world.entry.refresh with
    | none => exact absurd req joined
    | some request_ =>
      cases request_ with
      | requested epoch eventCursor => exact .inl ⟨epoch, eventCursor, req⟩
      | settled => exact .inr (joins req someone misses)
  · refine ⟨fun _ isFresh => ?_, fun _ _ => .inl ⟨_, eventCursor, is⟩⟩
    rw [stale] at isFresh
    cases isFresh

theorem Sound.connect (sound : world.Sound server) : (world.connect server).Sound server := by
  obtain ⟨alike, state, refresh, timers⟩ := world.connect_spec server
  refine ⟨fun ready isFresh => ?_, fun someone misses => ?_⟩
  · rw [state] at ready isFresh
    exact alike.current.mpr (sound.fresh ready isFresh)
  rw [alike.listeners] at someone
  rcases sound.attended someone (fun cur => misses (alike.current.mpr cur)) with inFlight | scheduled
  · refine .inl ?_
    rw [InFlight, refresh]
    exact inFlight
  · refine .inr ?_
    rw [Scheduled, timers]
    exact scheduled

end World

/-- An entry that nobody has subscribed to has been told of nothing. -/
structure World.Dormant (server : Server Value Cursor) (world : World Value Cursor) : Prop where
  listeners : world.entry.listeners = []
  current : world.Current server
  present : ∀ epoch eventCursor, world.entry.refresh = some (.requested epoch eventCursor) →
    epoch = world.entry.invalidationEpoch

structure World.Kept (server : Server Value Cursor) (world : World Value Cursor) : Prop where
  ordered : world.Ordered server
  sound : world.Sound server
  dormant : world.entry.activated = false → world.Dormant server

theorem World.Sound.joins (sound : world.Sound server) (settling : world.Settling)
    (someone : world.entry.listeners ≠ []) (misses : ¬ world.Current server) : world.Scheduled :=
  (sound.attended someone misses).resolve_left fun inFlight => inFlight.settles settling

theorem World.Ordered.refreshed (ordered : world.Ordered server)
    (fresh : world.entry.state.phase = .ready → world.entry.state.stale = false → world.Current server)
    (joins : world.Settling → world.entry.listeners ≠ [] → ¬ world.Current server → world.Scheduled)
    (dormant : world.entry.activated = false → world.Dormant server) : world.refresh.Kept server := by
  refine ⟨ordered.refresh, .refresh fresh joins, fun asleep => ?_⟩
  obtain ⟨alike, cases_⟩ := world.refresh_spec
  have dormant := dormant (alike.activated ▸ asleep)
  refine ⟨alike.listeners.trans dormant.listeners, alike.current.mpr dormant.current, fun epoch eventCursor is => ?_⟩
  rw [alike.epoch]
  obtain ⟨same, -⟩ | ⟨-, _, new⟩ := cases_
  · exact dormant.present epoch eventCursor (same ▸ is)
  · exact (Refresh.requested.inj (some.inj (is.symm.trans new))).1

section
variable (kept : world.Kept server)
include kept

namespace World

theorem Kept.refresh : world.refresh.Kept server :=
  kept.ordered.refreshed kept.sound.fresh kept.sound.joins kept.dormant

theorem Kept.connect : (world.connect server).Kept server := by
  refine ⟨kept.ordered.connect, kept.sound.connect, fun asleep => ?_⟩
  obtain ⟨alike, -, refresh, -⟩ := world.connect_spec server
  have dormant := kept.dormant (alike.activated ▸ asleep)
  refine ⟨alike.listeners.trans dormant.listeners, alike.current.mpr dormant.current, ?_⟩
  rw [refresh, alike.epoch]
  exact dormant.present

theorem Kept.subscribe (listener : Nat) (careful : Careful server world (.subscribe listener))
    : (world.subscribe server listener).Kept server := by
  have someone : world.entry.listeners.insert listener ≠ [] := by
    intro none_
    have : listener ∈ world.entry.listeners.insert listener := mem_insert_self
    rw [none_] at this
    cases this
  have ordered : Ordered server { world with entry := { world.entry with
      listeners := world.entry.listeners.insert listener, activated := true } } :=
    { kept.ordered with listening := fun _ => someone }
  have joins : world.Settling → ¬ world.Current server → world.Scheduled := by
    intro settling misses
    by_cases alone : world.entry.listeners = []
    · exact (careful settling alone).resolve_left misses
    · exact kept.sound.joins settling alone misses
  have refreshed := ordered.refreshed kept.sound.fresh (fun settling _ misses => joins settling misses) nofun
  unfold World.subscribe
  dsimp only
  split
  · exact refreshed
  split
  · exact refreshed
  · next active =>
    refine Kept.connect ⟨ordered, ⟨kept.sound.fresh, fun _ misses => ?_⟩, nofun⟩
    by_cases alone : world.entry.listeners = []
    · have asleep : world.entry.activated = false := by simpa [alone] using active
      exact absurd (kept.dormant asleep).current misses
    · exact kept.sound.attended alone misses

theorem Kept.unsubscribe (listener : Nat) : (world.unsubscribe listener).Kept server := by
  unfold World.unsubscribe
  dsimp only
  split
  · next alone =>
    have alike := alike_disconnect { world with entry := { world.entry with
      listeners := world.entry.listeners.erase listener } }
    have state := disconnect_state { world with entry := { world.entry with
      listeners := world.entry.listeners.erase listener } }
    have refresh := disconnect_refresh { world with entry := { world.entry with
      listeners := world.entry.listeners.erase listener } }
    refine ⟨kept.ordered.disconnect _, ⟨fun ready isFresh => alike.current.mpr ?_, fun someone => ?_⟩, fun asleep => ?_⟩
    · rw [state] at ready isFresh
      exact kept.sound.fresh ready isFresh
    · exact absurd (alike.listeners.trans alone) someone
    have dormant := kept.dormant (alike.activated ▸ asleep)
    refine ⟨alike.listeners.trans alone, alike.current.mpr dormant.current, ?_⟩
    rw [refresh, alike.epoch]
    exact dormant.present
  · next some_ =>
    refine ⟨{ kept.ordered with listening := fun _ => some_ }, ⟨kept.sound.fresh, fun _ misses => ?_⟩, fun asleep => ?_⟩
    · refine kept.sound.attended (fun none_ => some_ ?_) misses
      rw [none_]
      rfl
    have dormant := kept.dormant asleep
    refine absurd ?_ some_
    rw [dormant.listeners]
    rfl

theorem Kept.hydrate (snap : Snapshot Value Cursor) (served : Served server world (.hydrate snap))
    (careful : Careful server world (.hydrate snap)) : (world.hydrate snap).Kept server := by
  unfold World.hydrate
  split
  · next stored =>
    have cur := current_snapshot (careful stored) served.1
    refine ⟨{ kept.ordered with }, ⟨fun _ _ => cur _ rfl rfl, fun _ misses => ?_⟩, fun asleep => ?_⟩
    · exact absurd (cur _ rfl rfl) misses
    · have dormant := kept.dormant asleep
      exact ⟨dormant.listeners, cur _ rfl rfl, dormant.present⟩
  · exact kept

end World
end

namespace World

theorem scheduled_setTimer (world : World Value Cursor) (timer : Timer) (unset :
    ∀ timer, world.timersSet ≤ timer → world.timers timer = none) (scheduled : world.Scheduled) :
    (world.setTimer timer).Scheduled := by
  obtain ⟨pending, is⟩ := scheduled
  refine ⟨pending, (update_of_ne (fun same => ?_) ..).trans is⟩
  rw [unset pending (Nat.le_of_eq same.symm)] at is
  cases is

variable (kept : world.Kept server)
include kept

theorem Kept.fail (msg : String) (slot : world.entry.listeners ≠ [] → world.entry.reconnectTimer ≠ none →
      world.Current server ∨ world.Scheduled)
    : (world.fail msg).Kept server := by
  have ordered : ∀ state, Ordered server { world with entry := { world.entry with refresh := some .settled, state } } :=
    fun state => { kept.ordered with epochs := nofun, requested := nofun }
  unfold World.fail scheduleSnapshotRefresh
  dsimp only
  split
  · next unscheduled =>
    refine ⟨ordered _, ⟨fun _ => nofun, fun someone misses => ?_⟩, fun asleep => ?_⟩
    · exact .inr ((slot someone (unscheduled.resolve_left someone)).resolve_left misses)
    · have dormant := kept.dormant asleep
      exact ⟨dormant.listeners, dormant.current, nofun⟩
  · next scheduled =>
    have someone : world.entry.listeners ≠ [] := fun none_ => scheduled (.inl none_)
    refine ⟨(ordered _).setTimer _, ⟨fun _ => nofun, fun _ _ => .inr ⟨world.timersSet, ?_⟩⟩,
      fun asleep => absurd (kept.dormant asleep).listeners someone⟩
    exact update_self ..

theorem Kept.store (snap : Snapshot Value Cursor) (epoch : Nat) (eventCursor : Option Cursor)
    (awaited : world.entry.refresh = some (.requested epoch eventCursor))
    (since : world.since ≤ server.position snap.cursor)
    (reflected : server.position snap.cursor ≤ server.reflects snap.value) :
    (world.store server snap epoch eventCursor).Kept server := by
  unfold World.store
  dsimp only
  split
  · next superseded =>
    have ordered : ∀ state snapshotGeneratedAt, Ordered server
        { world with entry := { world.entry with state, snapshotGeneratedAt } } :=
      fun _ _ => { kept.ordered with }
    refine ⟨(ordered _ _).request, ⟨fun _ isFresh => ?_, fun _ _ => .inl ⟨_, _, rfl⟩⟩, fun asleep => ?_⟩
    · rw [request, decide_eq_true superseded] at isFresh
      cases isFresh
    · exact absurd ((kept.dormant asleep).present epoch eventCursor awaited).symm superseded
  next present =>
  obtain rfl : world.entry.invalidationEpoch = epoch := not_not.mp present
  have ordered : ∀ state snapshotGeneratedAt, Ordered server { world with
      entry := { world.entry with state, snapshotGeneratedAt, refresh := some .settled } } :=
    fun _ _ => { kept.ordered with epochs := nofun, requested := nofun }
  have told := kept.ordered.requested eventCursor awaited
  have cur := current_snapshot (Nat.le_trans told (Nat.le_trans since reflected)) reflected
  refine Kept.connect ⟨ordered _ _, ⟨fun _ _ => cur _ rfl rfl, fun _ misses => ?_⟩, fun asleep => ?_⟩
  · exact absurd (cur _ rfl rfl) misses
  · exact ⟨(kept.dormant asleep).listeners, cur _ rfl rfl, nofun⟩

theorem Kept.respond (res : Except String (Snapshot Value Cursor)) (served : Served server world (.respond res))
    (careful : Careful server world (.respond res)) : (world.respond server res).Kept server := by
  unfold World.respond
  split
  · next epoch eventCursor awaited =>
    split
    · next msg failed => exact kept.fail msg (careful msg ⟨epoch, eventCursor, awaited⟩ failed)
    next snap identified =>
    cases res with
    | error => cases identified
    | ok received =>
      have same : received = snap := by
        unfold StoreEntry.identify at identified
        dsimp only at identified
        split at identified
        · cases identified
        · exact Except.ok.inj identified
      subst same
      exact kept.store received epoch eventCursor awaited served.1 served.2.1
  · exact kept

theorem Kept.settle : world.settle.Kept server := by
  unfold World.settle
  split
  · next settling =>
    refine ⟨{ kept.ordered with epochs := nofun, requested := nofun },
      ⟨kept.sound.fresh, fun someone misses => .inr (kept.sound.joins settling someone misses)⟩,
      fun asleep => ?_⟩
    have dormant := kept.dormant asleep
    exact ⟨dormant.listeners, dormant.current, nofun⟩
  · exact kept

theorem Kept.subscriptionError (ctl : Nat) (msg : String) (idle : world.streams ctl = none)
    : (world.subscriptionError ctl msg).Kept server := by
  unfold World.subscriptionError
  split
  · exact kept
  next own =>
  have is : world.entry.controller = some ctl := not_not.mp fun other => own (.inr other)
  have someone : world.entry.listeners ≠ [] := kept.ordered.listening (by rw [is]; nofun)
  have closed : ∀ other delivered, world.streams other = some delivered → False := by
    intro other delivered here
    cases is.symm.trans (kept.ordered.streaming other delivered here)
    rw [idle] at here
    cases here
  have ordered : ∀ state, Ordered server
      { world with entry := { world.entry with controller := none, state } } := fun state =>
    { kept.ordered with
      streaming := fun other delivered here => (closed other delivered here).elim
      listening := fun some_ => absurd rfl some_ }
  refine ⟨(ordered _).setTimer _, ⟨fun _ => nofun, fun _ misses => ?_⟩,
    fun asleep => absurd (kept.dormant asleep).listeners someone⟩
  rcases kept.sound.attended someone misses with inFlight | scheduled
  · exact .inl inFlight
  · exact .inr (scheduled_setTimer _ _ kept.ordered.unset scheduled)

theorem Kept.fire (timer : Nat) (awaits : ¬ world.Settling) : (world.fire server timer).Kept server := by
  unfold World.fire
  split
  · next here =>
    exact Ordered.refreshed (kept.ordered.without timer none) kept.sound.fresh
      (fun settling => absurd settling awaits) fun asleep =>
        have dormant := kept.dormant asleep
        ⟨dormant.listeners, dormant.current, dormant.present⟩
  · next here =>
    refine Kept.connect ⟨kept.ordered.without timer none, ⟨kept.sound.fresh, fun someone misses => ?_⟩,
      fun asleep => ?_⟩
    · refine (kept.sound.attended someone misses).imp_right fun ⟨pending, is⟩ => ⟨pending, ?_⟩
      refine (update_of_ne (fun same => ?_) ..).trans is
      rw [same, here] at is
      cases is
    · have dormant := kept.dormant asleep
      exact ⟨dormant.listeners, dormant.current, dormant.present⟩
  · exact kept

end World

theorem StoreEntry.mem_note {entry : StoreEntry Value Cursor} {id : String}
    (among : id ∈ (entry.note event).seenEvents) : id ∈ entry.seenEvents ∨ id = event.id := by
  have : id ∈ entry.seenEvents ++ [event.id] := by
    unfold StoreEntry.note at among
    dsimp only at among
    split at among
    · exact mem_of_mem_tail among
    · exact among
  simpa using this

namespace World

theorem Ordered.accept (ordered : world.Ordered server) (event : QueryEvent Cursor)
    {streams : Nat → Option Nat} {told epoch : Nat} (state : QueryState Value Cursor)
    (same : ∀ ctl delivered, streams ctl = some delivered → world.entry.controller = some ctl)
    (committed : told ≤ world.committed) (further : world.told ≤ told)
    (later : epoch = world.entry.invalidationEpoch + 1 ∨ epoch = world.entry.invalidationEpoch ∧ told = world.told)
    (named : ∀ cursor, server.identify cursor = event.id → server.position cursor ≤ told) :
    Ordered server { world with
      told, streams, entry := { world.entry.note event with invalidationEpoch := epoch, state } } where
  streaming := same
  listening := ordered.listening
  unset := ordered.unset
  committed := committed
  epochs before eventCursor is := by
    have := ordered.epochs before eventCursor is
    change before ≤ epoch
    omega
  requested eventCursor is := by
    rcases later with rfl | ⟨rfl, rfl⟩
    · exact absurd (ordered.epochs _ eventCursor is) (not_succ_le_self _)
    · exact ordered.requested eventCursor is
  seen cursor among := by
    rcases StoreEntry.mem_note among with seen | new
    · exact Nat.le_trans (ordered.seen cursor seen) further
    · exact named cursor new

theorem Ordered.delivered (ordered : world.Ordered server) (here : world.streams ctl = some before)
    (pos other delivered : Nat) (is : update world.streams ctl (some pos) other = some delivered) :
    world.entry.controller = some other := by
  by_cases same : other = ctl
  · exact same ▸ ordered.streaming ctl before here
  · rw [update_of_ne same] at is
    exact ordered.streaming other delivered is

variable {controller delivered : Nat}

theorem Kept.ignored (kept : world.Kept server) (here : world.streams ctl = some delivered)
    (committed : pos ≤ world.committed)
    (old : pos ≤ world.told ∨ (world.entry.state.phase = .ready → world.entry.state.stale = false → pos ≤ world.held server) ∧ (pos ≤ world.held server ∨ world.InFlight ∨ world.Scheduled) ∧ ∀ eventCursor, world.entry.refresh = some (.requested world.entry.invalidationEpoch eventCursor) → pos ≤ world.since)
    : Kept server { world with
      told := max world.told pos
      streams := update world.streams ctl (some pos) } := by
  have cur : world.Current server → pos ≤ world.told ∨ pos ≤ world.held server →
      Current server { world with
        told := max world.told pos
        streams := update world.streams ctl (some pos) } := by
    intro ⟨told, below⟩ reflected
    exact And.intro (Nat.max_le.mpr ⟨told, reflected.elim (Nat.le_trans · told) id⟩) below
  have awake : world.entry.activated = false → False := by
    intro asleep
    have own := kept.ordered.streaming ctl delivered here
    exact kept.ordered.listening (by rw [own]; nofun) (kept.dormant asleep).listeners
  refine ⟨{ kept.ordered with
      streaming := kept.ordered.delivered here pos
      committed := Nat.max_le.mpr ⟨kept.ordered.committed, committed⟩
      requested := fun eventCursor is => ?_
      seen := fun cursor among => Nat.le_trans (kept.ordered.seen cursor among) (Nat.le_max_left ..) },
    ⟨fun ready isFresh => ?_, fun someone misses => ?_⟩, fun asleep => (awake asleep).elim⟩
  · have told := kept.ordered.requested eventCursor is
    exact Nat.max_le.mpr ⟨told, old.elim (Nat.le_trans · told) fun ⟨_, _, since⟩ => since eventCursor is⟩
  · exact cur (kept.sound.fresh ready isFresh) (old.imp_right fun ⟨reflected, _⟩ => reflected ready isFresh)
  by_cases was : world.Current server
  · rcases old with told | ⟨-, reflected | pending, -⟩
    · exact absurd (cur was (.inl told)) misses
    · exact absurd (cur was (.inr reflected)) misses
    · exact pending
  · exact kept.sound.attended someone was

theorem disconnect_timers (other : world.entry.reconnectTimer ≠ some timer) :
    world.disconnect.timers timer = world.timers timer := by
  have kept : world.abort.timers = world.timers ∧ world.abort.entry.reconnectTimer = world.entry.reconnectTimer := by
    unfold abort
    split <;> exact ⟨rfl, rfl⟩
  unfold disconnect clearTimer
  split
  · next slot is =>
    rw [kept.2] at is
    refine (update_of_ne (fun same => other ?_) ..).trans (congrFun kept.1 timer)
    rw [is, same]
  · exact congrFun kept.1 timer

theorem Ordered.reconnect (ordered : world.Ordered server) (stale : world.entry.state.stale = true)
    (awake : world.entry.activated ≠ false)
    (lost : world.Settling → world.Current server ∨ ∃ timer, world.entry.reconnectTimer ≠ some timer ∧
      world.timers timer = some .snapshotRefresh) : world.disconnect.refresh.Kept server := by
  have alike := world.alike_disconnect
  refine Ordered.refreshed (ordered.disconnect world.entry.listeners) (fun _ isFresh => ?_)
    (fun settling _ misses => ?_) fun asleep => absurd (alike.activated.symm.trans asleep) awake
  · rw [disconnect_state, stale] at isFresh
    cases isFresh
  rw [Settling, disconnect_refresh] at settling
  rcases lost settling with cur | ⟨timer, other, scheduled⟩
  · exact absurd (alike.current.mpr cur) misses
  · exact ⟨timer, (disconnect_timers other).trans scheduled⟩

variable (kept : world.Kept server) (here : world.streams controller = some delivered)
include kept here

theorem Kept.someone :
    world.entry.listeners ≠ [] ∧ world.entry.activated ≠ false := by
  have own := kept.ordered.streaming controller delivered here
  have someone : world.entry.listeners ≠ [] := kept.ordered.listening (by rw [own]; nofun)
  exact ⟨someone, fun asleep => someone (kept.dormant asleep).listeners⟩

theorem Kept.invalidate (id query : String) (seq upTo : Nat) (cursor : Cursor)
    (served : Served server world (.event controller (.invalidate id query seq cursor) upTo))
    (careful : Careful server world (.event controller (.invalidate id query seq cursor) upTo)) :
    Kept server (event { world with
        told := max world.told (server.position cursor)
        streams := update world.streams controller (some (server.position cursor)) }
      (.invalidate id query seq cursor)) := by
  obtain ⟨-, named, -, committed⟩ := served delivered here
  have careful := careful delivered here
  cases ignored : world.entry.ignores (.invalidate id query seq cursor) with
  | true =>
    rw [ignored] at careful
    unfold event
    rw [if_pos (by exact ignored)]
    refine kept.ignored here committed ?_
    by_cases seen : id ∈ world.entry.seenEvents
    · exact .inl (kept.ordered.seen cursor (named ▸ seen))
    · exact careful seen
  | false =>
    rw [ignored] at careful
    have ordered := kept.ordered.accept (.invalidate id query seq cursor)
      ((world.entry.note (.invalidate id query seq cursor)).state.advance cursor true)
      (kept.ordered.delivered here (server.position cursor))
      (Nat.max_le.mpr ⟨kept.ordered.committed, committed⟩) (Nat.le_max_left ..) (.inl rfl) fun other same => by
        rw [server.distinct other cursor (same.trans named)]
        exact Nat.le_max_right ..
    unfold event
    rw [if_neg (by rw [ignored]; nofun)]
    refine ordered.refreshed (fun _ => nofun) (fun settling _ misses => ?_)
      fun asleep => absurd asleep (kept.someone here).2
    rcases careful settling with ⟨told, reflected⟩ | scheduled
    · refine absurd (And.intro (Nat.max_le.mpr ⟨told, reflected⟩) fun other is => ?_) misses
      cases is
      exact reflected
    · exact scheduled

theorem Kept.keepalive (id query : String) (seq upTo : Nat) (cursor : Cursor)
    (served : Served server world (.event controller (.keepalive id query seq cursor) upTo))
    (careful : Careful server world (.event controller (.keepalive id query seq cursor) upTo)) :
    Kept server (world.event (.keepalive id query seq cursor)) := by
  obtain ⟨-, named, -⟩ := served delivered here
  have careful := careful delivered here
  cases ignored : world.entry.ignores (.keepalive id query seq cursor) with
  | true =>
    unfold event
    rw [if_pos (by exact ignored)]
    exact kept
  | false =>
    rw [ignored] at careful
    obtain ⟨alone, attended⟩ := careful
    have ordered := kept.ordered.accept (.keepalive id query seq cursor)
      ((world.entry.note (.keepalive id query seq cursor)).state.advance cursor world.entry.refresh.isSome)
      kept.ordered.streaming kept.ordered.committed (Nat.le_refl _) (.inr ⟨rfl, rfl⟩)
      fun other same => absurd same (named other)
    unfold event
    rw [if_neg (by rw [ignored]; nofun)]
    refine ⟨ordered, ⟨fun _ isFresh => ?_, fun someone misses => ?_⟩, fun asleep => absurd asleep (kept.someone here).2⟩
    · have isNone : world.entry.refresh.isSome = false := isFresh
      have absent : world.entry.refresh = none := by simpa using isNone
      obtain ⟨told, reflected⟩ := alone absent
      refine And.intro told fun other is => ?_
      cases is
      exact reflected
    rcases attended with reflected | pending
    · by_cases was : world.Current server
      · refine absurd (And.intro was.1 fun other is => ?_) misses
        cases is
        exact reflected
      · exact kept.sound.attended someone was
    · exact pending

theorem Kept.reset (id query : String) (upTo : Nat)
    (served : Served server world (.event controller (.reset id query) upTo))
    (careful : Careful server world (.event controller (.reset id query) upTo)) :
    Kept server (event { world with told := max world.told upTo } (.reset id query)) := by
  obtain ⟨same, unseen, named, committed⟩ := served delivered here
  have careful := careful delivered here
  have ignored : world.entry.ignores (.reset id query) = false := by
    have same : query = world.entry.query := same
    simp [StoreEntry.ignores, QueryEvent.query, QueryEvent.id, QueryEvent.sequence, same, unseen]
  rw [ignored] at careful
  have ordered := kept.ordered.accept (.reset id query)
    { world.entry.state with cursor := none, stale := true, revision := world.entry.state.revision + 1 }
    kept.ordered.streaming (Nat.max_le.mpr ⟨kept.ordered.committed, committed⟩) (Nat.le_max_left ..)
    (.inl rfl) fun other is => absurd is (named other)
  unfold event
  rw [if_neg (by rw [ignored]; nofun)]
  refine ordered.reconnect rfl (kept.someone here).2 fun settling => ?_
  exact (careful settling).imp_left fun ⟨told, reflected⟩ => And.intro (Nat.max_le.mpr ⟨told, reflected⟩) nofun

theorem Kept.event (event : QueryEvent Cursor) (upTo : Nat)
    (served : Served server world (.event controller event upTo))
    (careful : Careful server world (.event controller event upTo)) :
    ((world.receive server controller upTo event).event event).Kept server := by
  cases event with
  | invalidate id query seq cursor => exact kept.invalidate here id query seq upTo cursor served careful
  | keepalive id query seq cursor => exact kept.keepalive here id query seq upTo cursor served careful
  | reset id query => exact kept.reset here id query upTo served careful

end World

theorem World.Kept.unshown (kept : world.Kept server) {committed : Nat} {streams : Nat → Option Nat}
    (ordered : World.Ordered server { world with committed, streams }) :
    World.Kept server { world with committed, streams } :=
  ⟨ordered, ⟨kept.sound.fresh, kept.sound.attended⟩, fun asleep =>
    have dormant := kept.dormant asleep
    ⟨dormant.listeners, dormant.current, dormant.present⟩⟩

theorem World.Kept.next (kept : world.Kept server) (step : Step Value Cursor) (served : Served server world step)
    (careful : Careful server world step) : (world.next server step).Kept server := by
  cases step with
  | commit => exact kept.unshown { kept.ordered with committed := le_succ_of_le kept.ordered.committed }
  | subscribe listener => exact kept.subscribe listener careful
  | unsubscribe listener => exact kept.unsubscribe listener
  | refresh => exact kept.refresh
  | hydrate snap => exact kept.hydrate snap served careful
  | respond res => exact kept.respond res served careful
  | settle => exact kept.settle
  | event ctl event upTo =>
    unfold World.next
    dsimp only
    split
    · next delivered here => exact kept.event here event upTo served careful
    · exact kept
  | subscriptionError ctl msg =>
    exact (kept.unshown (kept.ordered.over ctl)).subscriptionError ctl msg (update_self ..)
  | fire timer => exact kept.fire timer served

theorem kept_start (server : Server Value Cursor) (query inputKey : String) :
    World.Kept server { entry := { query, inputKey } } :=
  ⟨⟨nofun, fun some_ => absurd rfl some_, fun _ _ => rfl, Nat.le_refl _, nofun, nofun, nofun⟩,
    ⟨nofun, fun someone => absurd rfl someone⟩, fun _ => ⟨rfl, And.intro (zero_le _) nofun, nofun⟩⟩

/-- In every run whose steps come at the right time, nothing is shown as fresh that misses a change, and what
is missed is about to be requested. -/
theorem changes_are_not_missed (server : Server Value Cursor) (query inputKey : String)
    (steps : List (Step Value Cursor))
    (each : EachStep (World.next server) (fun world step => Served server world step ∧
      Careful server world step) { entry := { query, inputKey } } steps) :
    (runFrom (World.next server) { entry := { query, inputKey } } steps).Sound server :=
  (invariant_of_steps (World.Kept server) (fun _ step kept met => kept.next step met.1 met.2)
    (kept_start server query inputKey) each).sound

theorem identify_distinct (one other : Nat)
    (same : String.ofList (List.replicate one 'c') = String.ofList (List.replicate other 'c')) : one = other := by
  have := congrArg List.length (String.ofList_injective same)
  simpa using this

/-- A server whose values are how many changes they reflect. -/
def counting : Server Nat Nat where
  reflects := id
  position := id
  identify position := String.ofList (List.replicate position 'c')
  distinct := identify_distinct

theorem counting_keepalive (pos : Nat) : counting.identify pos ≠ "k" := by
  intro same
  have shown : List.replicate pos 'c' = ['k'] := String.ofList_injective same
  have among : 'k' ∈ List.replicate pos 'c' := shown ▸ mem_singleton_self _
  exact absurd (eq_of_mem_replicate among) (by decide)

def shown (changes : Nat) : Snapshot Nat Nat := ⟨"orders", "null", changes, changes, changes⟩

/-- A listener is shown a snapshot, and then a change is committed and its invalidate comes. -/
def invalidated : List (Step Nat Nat) :=
  [.subscribe 0, .respond (.ok (shown 0)), .settle, .commit, .event 0 (.invalidate "c" "orders" 1 1) 0]

/-- The snapshot fails, and a keepalive comes before its timer fires. -/
def confirmed : List (Step Nat Nat) :=
  invalidated ++ [.respond (.error "offline"), .settle, .event 0 (.keepalive "k" "orders" 1 1) 0]

/-- The stream breaks, and the snapshot fails before its timer fires. -/
def disconnected : List (Step Nat Nat) :=
  invalidated ++ [.subscriptionError 0 "offline", .respond (.error "offline"), .settle]

def started : World Nat Nat := { entry := { query := "orders", inputKey := "null" } }

theorem served_invalidated : EachStep (World.next counting) (Served counting) started invalidated := by
  refine ⟨trivial, ⟨by decide, by decide, by decide⟩, trivial, trivial, fun delivered is => ?_, trivial⟩
  cases is
  exact ⟨rfl, rfl, by decide, by decide⟩

/-- What misses a change is shown as fresh; and what misses one waits for a timer that only reconnects. -/
theorem changes_are_missed : (EachStep (World.next counting) (Served counting) started confirmed ∧
      (runFrom (World.next counting) started confirmed).entry.state.phase = .ready ∧
      (runFrom (World.next counting) started confirmed).entry.state.stale = false ∧
      (runFrom (World.next counting) started confirmed).entry.state.value = some 0 ∧
      (runFrom (World.next counting) started confirmed).told = 1) ∧
    EachStep (World.next counting) (Served counting) started disconnected ∧
      (runFrom (World.next counting) started disconnected).entry.listeners = [0] ∧
      (runFrom (World.next counting) started disconnected).entry.state.value = some 0 ∧
      (runFrom (World.next counting) started disconnected).told = 1 ∧
      (runFrom (World.next counting) started disconnected).entry.refresh.isNone ∧
      ∀ timer, (runFrom (World.next counting) started disconnected).timers timer ≠ some .snapshotRefresh := by
  refine ⟨⟨?_, rfl, rfl, rfl, rfl⟩, ?_, rfl, rfl, rfl, rfl, fun timer => ?_⟩
  · refine eachStep_append.mpr ⟨served_invalidated, trivial, trivial, fun delivered is => ?_, trivial⟩
    cases is
    exact ⟨rfl, counting_keepalive, by decide⟩
  · exact eachStep_append.mpr ⟨served_invalidated, trivial, trivial, trivial, trivial⟩
  change update (fun _ => none) 0 (some Timer.reconnect) timer ≠ _
  by_cases first : timer = 0
  · rw [first, update_self]
    nofun
  · rw [update_of_ne first]
    nofun

/-- The snapshot is stored before the keepalive comes. -/
theorem changes_are_not_missed_refreshed : (runFrom (World.next counting) started (invalidated ++
    [.respond (.ok (shown 1)), .settle, .event 0 (.keepalive "k" "orders" 1 1) 0])).Sound counting := by
  refine changes_are_not_missed counting "orders" "null" _ (eachStep_append.mpr ⟨?_, ?_⟩)
  · refine served_invalidated.and ⟨nofun, fun _ _ => nofun, trivial, trivial, fun delivered is => ?_, trivial⟩
    exact fun settling => nomatch settling
  refine ⟨⟨⟨by decide, by decide, by decide⟩, fun _ _ => nofun⟩, ⟨trivial, trivial⟩, ⟨?_, ?_⟩, trivial⟩
  · intro delivered is
    cases is
    exact ⟨rfl, counting_keepalive, by decide⟩
  · intro delivered _
    exact And.intro (fun _ => ⟨by decide, by decide⟩) (.inl (by decide))

end Applik8s.QueryStore
