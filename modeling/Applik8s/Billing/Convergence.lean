import Applik8s.Billing.Projection

/-! Subscriptions converge to their newest event, unless an edit comes after that of a newer event. The row
was read before; what was written since, the edit does not look at. Where no edit finds a newer row, rows
only advance, and a handler returns once its row is at least as new as its event. -/
namespace Applik8s.Billing
open Lib
variable {runtime : Runtime} {world world' : World} {event other newest : PaymentProviderEvent}
  {payload : Json} {choice : Choice}

section
variable (runtime : Runtime) (row : Subscription) (event : PaymentProviderEvent)

def Subscription.Carries : Prop :=
  row.id = event.subscriptionId ∧ patched event row = row

def Subscription.instant : Option Int := runtime.dates.parse row.providerOccurredAt

def PaymentProviderEvent.instant : Option Int :=
  runtime.dates.parse event.occurredAt

def NotLater : Option Int → Option Int → Prop
  | some before, some after => before ≤ after
  | _, _ => False

instance : ∀ before after, Decidable (NotLater before after)
  | some before, some after => inferInstanceAs (Decidable (before ≤ after))
  | none, _ => inferInstanceAs (Decidable False)
  | some _, none => inferInstanceAs (Decidable False)

/-- The row of a handled event carries an event that was delivered and that no handled event is newer than. -/
def World.Converged (delivered : PaymentProviderEvent → Prop) (world : World) : Prop :=
  ∀ event ∈ world.handled, ∃ row newest, world.subscriptions.find? event.subscriptionId = some row ∧
    delivered newest ∧ row.Carries newest ∧ ∀ other ∈ world.handled,
      other.subscriptionId = event.subscriptionId → NotLater (other.instant runtime) (newest.instant runtime)

def Advances (system : System) (event : Event) : Prop :=
  ∀ id row, system.world.subscriptions.find? id = some row →
    ∃ row', (next runtime system event).world.subscriptions.find? id = some row' ∧
      (row' = row ∨ NotLater (row.instant runtime) (row'.instant runtime))

/-- An edit finds a row that is not newer than its event: since the row was read, no handler of a newer
event has written it. -/
def World.Timely (world : World) : Request → Prop
  | .editSubscription id update => ∀ row ∈ world.subscriptions.find? id, (update row).storable runtime →
    NotLater (row.instant runtime) ((update row).instant runtime)
  | _ => True

def Timely (system : System) : Event → Prop
  | .step caller choice => choice.takes = true → system.Asks caller (system.world.Timely runtime)
  | _ => True

instance (world : World) : ∀ request, Decidable (world.Timely runtime request)
  | .editSubscription id update => inferInstanceAs (Decidable (∀ row ∈ world.subscriptions.find? id,
      (update row).storable runtime → NotLater (row.instant runtime) ((update row).instant runtime)))
  | .getCustomer _ | .findCustomers _ _ _ | .createCustomer _ | .getSubscription _
  | .createSubscription _ | .acknowledge _ => inferInstanceAs (Decidable True)

instance (system : System) : ∀ event, Decidable (Timely runtime system event)
  | .start _ _ | .stop _ => inferInstanceAs (Decidable True)
  | .step caller choice =>
    have : Decidable (system.Asks caller (system.world.Timely runtime)) :=
      system.decideAsks caller fun request : Request =>
        inferInstanceAs (Decidable (system.world.Timely runtime request))
    inferInstanceAs (Decidable (choice.takes = true → system.Asks caller (system.world.Timely runtime)))

def Delivered (events : List Event) (event : PaymentProviderEvent) : Prop :=
  ∃ caller payload, .start caller payload ∈ events ∧ paymentProviderEventPayload runtime payload = .ok event

end

theorem NotLater.trans (one : NotLater first second) (two : NotLater second third) : NotLater first third := by
  cases first with
  | none => exact one.elim
  | some first =>
    cases second with
    | none => exact one.elim
    | some second =>
      cases third with
      | none => exact two.elim
      | some third => exact Int.le_trans one two

theorem notBefore_iff : notBefore runtime cur following = true ↔
    NotLater (runtime.dates.parse following) (runtime.dates.parse cur) := by
  unfold notBefore NotLater
  cases runtime.dates.parse cur <;> cases runtime.dates.parse following <;> simp

theorem NotLater.refl (date : instant.isSome) : NotLater instant instant := by
  cases instant with
  | none => cases date
  | some instant => exact Int.le_refl instant

theorem Subscription.storable_instant {row : Subscription} (storable : row.storable runtime = true) :
    (row.instant runtime).isSome := by
  unfold Subscription.storable at storable
  simp only [Bool.and_eq_true] at storable
  exact storable.2

section
variable (runtime : Runtime)

def World.Covers (world : World) (event : PaymentProviderEvent) : Prop :=
  ∃ row, world.subscriptions.find? event.subscriptionId = some row ∧
    NotLater (event.instant runtime) (row.instant runtime)

def World.Follows (world world' : World) : Prop :=
  ∀ id row, world.subscriptions.find? id = some row → ∃ row', world'.subscriptions.find? id = some row' ∧
    (row' = row ∨ NotLater (row.instant runtime) (row'.instant runtime))

/-- Every row carries an event that was delivered, and every handled event is covered. -/
structure World.Sound (delivered : PaymentProviderEvent → Prop) (world : World) : Prop where
  rows : ∀ id row, world.subscriptions.find? id = some row → ∃ event, delivered event ∧ row.id = id ∧ row.Carries event
  handled : ∀ event ∈ world.handled, world.Covers runtime event

variable {runtime}

theorem World.Follows.refl (world : World) : world.Follows runtime world :=
  fun _ row here => ⟨row, here, .inl rfl⟩

theorem World.Covers.follows (covers : world.Covers runtime event) (follows : world.Follows runtime world') :
    world'.Covers runtime event := by
  obtain ⟨row, here, notLater⟩ := covers
  obtain ⟨row', there, rfl | advanced⟩ := follows _ row here
  · exact ⟨row', there, notLater⟩
  · exact ⟨row', there, notLater.trans advanced⟩

theorem World.Sound.put (sound : world.Sound runtime delivered) (carries : row.Carries event)
    (asked : delivered event) (storable : row.storable runtime = true)
    (fresh : ∀ before, world.subscriptions.find? row.id = some before → NotLater (before.instant runtime) (row.instant runtime))
    : World.Sound runtime delivered { world with subscriptions := world.subscriptions.put row } ∧
      world.Follows runtime { world with subscriptions := world.subscriptions.put row } ∧
      World.Covers runtime { world with subscriptions := world.subscriptions.put row } event := by
  have follows : world.Follows runtime { world with subscriptions := world.subscriptions.put row } := by
    intro id before here
    by_cases same : id = row.id
    · subst same
      exact ⟨row, (Table.find?_put _).trans (if_pos rfl), .inr (fresh before here)⟩
    · exact ⟨before, (Table.find?_put _).trans ((if_neg same).trans here), .inl rfl⟩
  refine ⟨⟨fun id stored here => ?_, fun other among => (sound.handled other among).follows follows⟩,
    follows, row, ?_, ?_⟩
  · rw [Table.find?_put] at here
    split at here
    · next same =>
      cases here
      exact ⟨event, asked, same.symm, carries⟩
    · exact sound.rows id stored here
  · rw [← carries.1]
    exact (Table.find?_put _).trans (if_pos rfl)
  · have same : row.instant runtime = event.instant runtime := by
      rw [← carries.2]
      rfl
    rw [← same]
    exact .refl (Subscription.storable_instant storable)

end

section
inductive Stage where
  | pending
  | covered

variable (runtime : Runtime)

def permits : Json × Stage → Request → Prop
  | (payload, _), .createSubscription row => ∃ event,
      paymentProviderEventPayload runtime payload = .ok event ∧ row = newSubscription event
  | (payload, _), .editSubscription id update => ∃ event,
      paymentProviderEventPayload runtime payload = .ok event ∧ id = event.subscriptionId ∧ update = patched event
  | (payload, stage), .acknowledge event => paymentProviderEventPayload runtime payload = .ok event ∧ stage = .covered
  | _, _ => True

def afterwards : Json × Stage → (request : Request) → request.Reply → Json × Stage
  | (payload, stage), .getSubscription id, .ok (some row) =>
    match paymentProviderEventPayload runtime payload with
    | .ok event => if id = event.subscriptionId ∧ notBefore runtime row.providerOccurredAt event.occurredAt
        then (payload, .covered) else (payload, stage)
    | .error _ => (payload, stage)
  | (payload, _), .createSubscription _, .ok _ | (payload, _), .editSubscription _ _, .ok _ => (payload, .covered)
  | phase, _, _ => phase

def conduct : Conduct Projection (Json × Stage) where
  permits := permits runtime
  answers _ _ := True
  after := afterwards runtime

variable {runtime}

theorem obeys_mapCustomer : Obeys (conduct runtime) (fun phase _ => phase = (payload, stage))
    (payload, stage) (mapCustomer event) := by
  refine ⟨trivial, ?_⟩
  rintro (err | providerCustomer) -
  · rfl
  change Obeys _ _ _ (Program.check (checkProviderCustomer event providerCustomer) >>= _)
  cases checkProviderCustomer event providerCustomer with
  | error => rfl
  | ok _ =>
    refine ⟨trivial, ?_⟩
    rintro (err | scopedCustomers) -
    · rfl
    change Obeys _ _ _ (Program.check (checkScopedCustomer event scopedCustomers) >>= _)
    cases checkScopedCustomer event scopedCustomers with
    | error => rfl
    | ok =>
      change Obeys _ _ _ (ite _ _ _)
      split
      · refine ⟨trivial, ?_⟩
        rintro (_ | _) - <;> rfl
      · rfl

theorem obeys_projectRow (asked : paymentProviderEventPayload runtime payload = .ok event) :
    Obeys (conduct runtime) (fun phase res => match res with
      | .ok _ => phase = (payload, .covered)
      | .error _ => True) (payload, stage) (projectRow runtime event) := by
  refine ⟨trivial, ?_⟩
  rintro (err | _ | row) -
  · trivial
  · refine ⟨⟨event, asked, rfl⟩, ?_⟩
    rintro (err | _) -
    · trivial
    · rfl
  change Obeys _ _ (afterwards runtime (payload, stage) (.getSubscription event.subscriptionId)
    (.ok (some row))) (ite _ _ _)
  have after : afterwards runtime (payload, stage) (.getSubscription event.subscriptionId) (.ok (some row)) =
      if notBefore runtime row.providerOccurredAt event.occurredAt then (payload, .covered)
      else (payload, stage) := by
    simp [afterwards, asked]
  rw [after]
  split
  · rfl
  refine ⟨⟨event, asked, rfl, rfl⟩, ?_⟩
  rintro (_ | _) -
  · trivial
  · rfl

theorem conducted (payload : Json) : Obeys (conduct runtime) (fun _ _ => True) (payload, .pending)
    (projectPaymentSubscription runtime payload) := by
  change Obeys _ _ _ (Program.check (paymentProviderEventPayload runtime payload) >>= _)
  cases asked : paymentProviderEventPayload runtime payload with
  | error => trivial
  | ok event =>
    change Obeys _ _ _ (mapCustomer event >>= _)
    refine obeys_bind.mpr (obeys_mapCustomer.weaken ?_)
    rintro phase (err | _) rfl
    · trivial
    refine obeys_bind.mpr ((obeys_projectRow asked).weaken ?_)
    rintro _ (_ | _) closed
    · trivial
    · obtain rfl := closed
      exact ⟨⟨asked, rfl⟩, fun _ _ => trivial⟩

end

open World (Follows answer)

section
variable {delivered : PaymentProviderEvent → Prop}

theorem World.write_spec (choice : Choice) (world : World) (written : Except String World) :
    (∃ err, world.write choice written = (.error err, world)) ∨
      ∃ after, written = .ok after ∧ choice.takes = true ∧ (world.write choice written).2 = after := by
  unfold World.write
  split
  · next takes =>
    cases written with
    | error err => exact .inl ⟨err, rfl⟩
    | ok after => exact .inr ⟨after, rfl, takes, rfl⟩
  · exact .inl ⟨_, rfl⟩

structure Knows (runtime : Runtime) (delivered : PaymentProviderEvent → Prop) (world : World)
    (payload : Json) (phase : Json × Stage) : Prop where
  same : phase.1 = payload
  asked : ∀ event, paymentProviderEventPayload runtime payload = .ok event → delivered event
  covered : phase.2 = .covered → ∀ event, paymentProviderEventPayload runtime payload = .ok event →
    world.Covers runtime event

theorem Knows.follows (knows : Knows runtime delivered world payload phase) (follows : world.Follows runtime world')
    : Knows runtime delivered world' payload phase :=
  { knows with covered := fun is event same => (knows.covered is event same).follows follows }

theorem World.Sound.same (sound : world.Sound runtime delivered)
    (subscriptions : world'.subscriptions = world.subscriptions) (handled : world'.handled = world.handled) :
    world'.Sound runtime delivered ∧ world.Follows runtime world' := by
  have follows : world.Follows runtime world' := by
    rw [Follows, subscriptions]
    exact World.Follows.refl world
  refine ⟨⟨?_, ?_⟩, follows⟩
  · rw [subscriptions]
    exact sound.rows
  · rw [handled]
    exact fun event among => (sound.handled event among).follows follows

theorem World.Sound.createSubscription (sound : world.Sound runtime delivered) (asked : delivered event)
    (created : world.createSubscription runtime (newSubscription event) = .ok world') :
    world'.Sound runtime delivered ∧ world.Follows runtime world' ∧ world'.Covers runtime event := by
  unfold World.createSubscription at created
  split at created
  · cases created
  next storable =>
  split at created
  · cases created
  next apart =>
  cases created
  refine sound.put ⟨rfl, rfl⟩ asked (by simpa using storable) fun before here => ?_
  obtain ⟨among, same⟩ := Table.find?_eq_some.mp here
  refine absurd (List.any_eq_true.mpr ⟨before, among, ?_⟩) apart
  have same : before.id = (newSubscription event).id := same
  simp [Subscription.conflicts, same]

theorem World.Sound.editSubscription (sound : world.Sound runtime delivered) (asked : delivered event)
    (edited : world.editSubscription runtime event.subscriptionId (patched event) = .ok world')
    (timely : ∀ row, world.subscriptions.find? event.subscriptionId = some row →
      (patched event row).storable runtime → NotLater (row.instant runtime) ((patched event row).instant runtime)) :
    world'.Sound runtime delivered ∧ world.Follows runtime world' ∧ world'.Covers runtime event := by
  unfold World.editSubscription at edited
  split at edited
  · cases edited
  next row here =>
  dsimp only at edited
  split at edited
  · cases edited
  next storable =>
  split at edited
  · cases edited
  cases edited
  have storable : (patched event row).storable runtime = true := by simpa using storable
  obtain ⟨-, -, id, -⟩ := sound.rows _ row here
  refine sound.put ⟨id, rfl⟩ asked storable fun before there => ?_
  have there : world.subscriptions.find? row.id = some before := there
  rw [id, here] at there
  cases there
  exact timely row here storable

/-- A handler that has written its row knows that it is covered; one that has not knows what it knew. -/
theorem Knows.written (knows : Knows runtime delivered world payload (payload, stage))
    (covers : ∀ event, paymentProviderEventPayload runtime payload = .ok event → world'.Covers runtime event)
    (after : Stage) : Knows runtime delivered world' payload (payload, after) :=
  ⟨rfl, knows.asked, fun _ => covers⟩

/-- Every answer leaves the rows and the handled events in order, given that edits come in time. -/
theorem answer_sound (req : Request) (choice : Choice) (sound : world.Sound runtime delivered)
    (knows : Knows runtime delivered world payload phase) (permitted : permits runtime phase req)
    (timely : choice.takes = true → ∀ id update row, req = .editSubscription id update → world.subscriptions.find? id = some row → (update row).storable runtime → NotLater (row.instant runtime) ((update row).instant runtime))
    : (answer runtime req choice world).2.Sound runtime delivered ∧
      world.Follows runtime (answer runtime req choice world).2 ∧
      Knows runtime delivered (answer runtime req choice world).2 payload
        (afterwards runtime phase req (answer runtime req choice world).1) := by
  obtain ⟨payload', _⟩ := phase
  obtain rfl : payload' = payload := knows.same
  cases req with
  | getCustomer id | findCustomers principalScope provider limit => exact ⟨sound, .refl world, knows⟩
  | createCustomer row =>
    rcases World.write_spec choice world (world.createCustomer row) with ⟨err, is⟩ | ⟨after, created, -, is⟩
    · rw [answer, is]
      exact ⟨sound, .refl world, knows⟩
    obtain ⟨kept, follows⟩ : after.Sound runtime delivered ∧ world.Follows runtime after := by
      unfold World.createCustomer at created
      split at created
      · cases created
      · cases created
        exact sound.same rfl rfl
    rw [answer, is]
    exact ⟨kept, follows, knows.follows follows⟩
  | getSubscription id =>
    refine ⟨sound, .refl world, ?_⟩
    rw [answer]
    split
    · cases here : world.subscriptions.find? id with
      | none => exact knows
      | some row =>
        unfold afterwards
        dsimp only
        split
        · next event asked =>
          split
          · next newer =>
            refine knows.written (fun other same => ?_) .covered
            cases asked.symm.trans same
            exact ⟨row, newer.1 ▸ here, notBefore_iff.mp newer.2⟩
          · exact knows
        · exact knows
    · exact knows
  | createSubscription row =>
    obtain ⟨event, asked, rfl⟩ := permitted
    rcases World.write_spec choice world (world.createSubscription runtime (newSubscription event)) with
      ⟨err, is⟩ | ⟨after, created, -, is⟩
    · rw [answer, is]
      exact ⟨sound, .refl world, knows⟩
    obtain ⟨kept, follows, covers⟩ := sound.createSubscription (knows.asked event asked) created
    have written := knows.written fun other same => by
      cases asked.symm.trans same
      exact covers
    rw [answer, is]
    refine ⟨kept, follows, ?_⟩
    generalize World.write choice world _ = res
    obtain ⟨err | _, _⟩ := res
    · exact knows.follows follows
    · exact written .covered
  | editSubscription =>
    obtain ⟨event, asked, rfl, rfl⟩ := permitted
    rcases World.write_spec choice world (world.editSubscription runtime event.subscriptionId (patched event)) with
      ⟨err, is⟩ | ⟨after, edited, takes, is⟩
    · rw [answer, is]
      exact ⟨sound, .refl world, knows⟩
    obtain ⟨kept, follows, covers⟩ := sound.editSubscription (knows.asked event asked) edited
      fun row here storable => timely takes _ _ row rfl here storable
    have written := knows.written fun other same => by
      cases asked.symm.trans same
      exact covers
    rw [answer, is]
    refine ⟨kept, follows, ?_⟩
    generalize World.write choice world _ = res
    obtain ⟨_ | _, _⟩ := res
    · exact knows.follows follows
    · exact written .covered
  | acknowledge event =>
    obtain ⟨asked, rfl⟩ := permitted
    have follows : world.Follows runtime { world with handled := world.handled ++ [event] } :=
      World.Follows.refl world
    refine ⟨⟨sound.rows, fun other among => ?_⟩, follows, knows.follows follows⟩
    rcases List.mem_append.mp among with before | last
    · exact sound.handled other before
    · obtain rfl := List.mem_singleton.mp last
      exact knows.covered rfl other asked

end

section
variable (runtime : Runtime) (delivered : PaymentProviderEvent → Prop)

/-- An edit comes in time, and only events that are delivered are handled. -/
def Allowed (system : System) (event : Event) : Prop :=
  Timely runtime system event ∧ ∀ caller payload, event = .start caller payload →
    ∀ started, paymentProviderEventPayload runtime payload = .ok started → delivered started

abbrev Invariant : World → (Nat → Option (Json × Json × Stage)) → Prop :=
  Pointwise (World.Sound runtime delivered) (Knows runtime delivered)

variable {runtime delivered}

theorem Allowed.timely {req : Request} {rest : req.Reply → Handler Unit}
    (allowed : Allowed runtime delivered sys (.step caller choice))
    (running : sys.callers caller = some ⟨payload, .call req rest⟩) (takes : choice.takes = true) (id : String)
    (update : Subscription → Subscription) (row : Subscription) (is : req = .editSubscription id update)
    (here : sys.world.subscriptions.find? id = some row) (storable : (update row).storable runtime)
    : NotLater (row.instant runtime) ((update row).instant runtime) := by
  subst is
  exact allowed.1 takes payload (.editSubscription id update) rest running row here storable

theorem keeps : Crowd.Keeps (server runtime) (projectPaymentSubscription runtime) (conduct runtime)
    (Invariant runtime delivered) (Allowed runtime delivered) fun payload => (payload, .pending) := by
  refine Crowd.keeps_pointwise (Follows runtime) conducted ?_ ?_ ?_
  · intro sys caller payload allowed _
    exact ⟨rfl, allowed.2 caller payload rfl, nofun⟩
  · intro world world' payload phase knows follows
    exact knows.follows follows
  · intro sys caller choice payload phase req rest running allowed sound knows permitted
    obtain ⟨kept, follows, holds⟩ :=
      answer_sound req choice sound knows permitted (allowed.timely running)
    exact ⟨trivial, kept, follows, holds⟩

theorem kept_start : Crowd.Kept (conduct runtime) (Invariant runtime delivered) ({ world := {} } : System) :=
  kept_empty ⟨⟨nofun, nofun⟩, fun _ _ _ here => (Option.some_ne_none _ here.symm).elim⟩

theorem advances (kept : sys.Kept (conduct runtime) (Invariant runtime delivered)) (event : Event)
    (allowed : Allowed runtime delivered sys event) : Advances runtime sys event := by
  obtain ⟨_, conducted, sound, agrees⟩ := kept
  refine Crowd.advance_world (Follows runtime) (World.Follows.refl _) ?_
  rintro caller choice payload req _ rfl running
  obtain ⟨phase, here, permitted, -⟩ := conducted.obeys caller _ _ running
  exact (answer_sound req choice sound (agrees caller payload phase here) permitted (allowed.timely running)).2.1

theorem World.Sound.converged (sound : world.Sound runtime delivered) : world.Converged runtime delivered := by
  intro event among
  obtain ⟨row, here, -⟩ := sound.handled event among
  obtain ⟨newest, asked, -, carries⟩ := sound.rows _ row here
  refine ⟨row, newest, here, asked, carries, fun other handled same => ?_⟩
  obtain ⟨_, there, notLater⟩ := sound.handled other handled
  rw [same, here] at there
  cases there
  have instant : row.instant runtime = newest.instant runtime := by
    rw [← carries.2]
    rfl
  exact instant ▸ notLater

/-- Where every edit comes in time, subscriptions converge to the newest of their handled events, and no row
is replaced by that of an older event. -/
theorem subscriptions_converge (runtime : Runtime) (events : List Event)
    (each : EachStep (next runtime) (Timely runtime) { world := {} } events) :
    (runFrom (next runtime) { world := {} } events).world.Converged runtime (Delivered runtime events) ∧
      EachStep (next runtime) (Advances runtime) { world := {} } events := by
  have allowed : EachStep (next runtime) (Allowed runtime (Delivered runtime events)) { world := {} } events := by
    have begins : EachStep (next runtime) (fun _ event => event ∈ events) { world := {} } events :=
      eachStep_of_forall fun _ => id
    refine (each.and begins).imp fun event _ system met => ⟨met.1, ?_⟩
    rintro caller payload rfl _ is
    exact ⟨caller, payload, met.2, is⟩
  have steps := eachStep_of_steps (Crowd.Kept (conduct runtime) (Invariant runtime (Delivered runtime events)))
    (fun _ event kept allowed => keeps.advance event kept allowed) kept_start allowed
  obtain ⟨_, -, sound, -⟩ := keeps.run kept_start allowed
  exact ⟨sound.converged, steps.imp fun event _ system met => advances met.1 event met.2⟩

end

def plainRuntime : Runtime := ⟨utcDates, id⟩

def paid (id : String) (status : PaymentStatus) (occurredAt : String) : PaymentProviderEvent where
  provider := "stripe"
  id := id
  customerId := "cus"
  subscriptionId := "sub"
  principalScope := "ada"
  plan := "pro"
  status := status
  occurredAt := occurredAt
  periodStart := "2026-07-01T00:00:00Z"
  periodEnd := "2026-08-01T00:00:00Z"
  rawType := "updated"

private def payloadOf (event : PaymentProviderEvent) (status : String) : Json :=
  .object [("provider", .string event.provider), ("id", .string event.id),
    ("customerId", .string event.customerId), ("subscriptionId", .string event.subscriptionId),
    ("principalScope", .string event.principalScope), ("plan", .string event.plan),
    ("status", .string status), ("occurredAt", .string event.occurredAt),
    ("periodStart", .string event.periodStart), ("periodEnd", .string event.periodEnd),
    ("rawType", .string event.rawType)]

private def begun : PaymentProviderEvent := paid "evt_0" .active "2026-07-01T00:00:00Z"
private def failed : PaymentProviderEvent := paid "evt_1" .pastDue "2026-07-02T00:00:00Z"
private def ended : PaymentProviderEvent := paid "evt_2" .cancelled "2026-07-03T00:00:00Z"
private def steps (caller count : Nat) : List Event := List.replicate count (.step caller ⟨true, true⟩)

private def readRow : List Event :=
  [.start 0 (payloadOf begun "active")] ++ steps 0 7 ++ [.start 1 (payloadOf failed "pastDue")] ++ steps 1 3

private def overtaken : List Event :=
  readRow ++ [.start 2 (payloadOf ended "cancelled")] ++ steps 2 6 ++ steps 1 3

private def ordered : List Event :=
  readRow ++ steps 1 3 ++ [.start 2 (payloadOf ended "cancelled")] ++ steps 2 6

/-- A cancelled subscription is past due again. -/
theorem cancellation_is_overwritten :
    (runFrom (next plainRuntime) { world := {} } overtaken).world.handled = [begun, ended, failed] ∧
      (runFrom (next plainRuntime) { world := {} } overtaken).world.subscriptions.find? "sub" =
        some (patched failed (newSubscription begun)) ∧
      ¬ (runFrom (next plainRuntime) { world := {} } overtaken).world.Converged plainRuntime
        (Delivered plainRuntime overtaken) := by
  have handled : (runFrom (next plainRuntime) { world := {} } overtaken).world.handled =
      [begun, ended, failed] := by decide +kernel
  have stored : (runFrom (next plainRuntime) { world := {} } overtaken).world.subscriptions.find? "sub" =
      some (patched failed (newSubscription begun)) := by decide +kernel
  refine ⟨handled, stored, fun converged => ?_⟩
  have among : ended ∈ (runFrom (next plainRuntime) { world := {} } overtaken).world.handled := by
    rw [handled]
    decide
  obtain ⟨_, newest, here, -, carries, newer⟩ := converged ended among
  cases stored.symm.trans here
  have same : newest.occurredAt = failed.occurredAt := congrArg Subscription.providerOccurredAt carries.2
  have notLater := newer ended among rfl
  rw [PaymentProviderEvent.instant, PaymentProviderEvent.instant, same] at notLater
  exact absurd notLater (by decide +kernel)

theorem subscriptions_converge_ordered :
    (runFrom (next plainRuntime) { world := {} } ordered).world.handled = [begun, failed, ended] ∧
      (runFrom (next plainRuntime) { world := {} } ordered).world.Converged plainRuntime
        (Delivered plainRuntime ordered) ∧
      EachStep (next plainRuntime) (Advances plainRuntime) { world := {} } ordered :=
  ⟨by decide +kernel, subscriptions_converge plainRuntime ordered (by decide +kernel)⟩

end Applik8s.Billing
