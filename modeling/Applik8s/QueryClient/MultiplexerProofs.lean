import Applik8s.QueryClient.Multiplexer

/-! Subscriptions are not stranded. Every call that changes what is subscribed raises the restart revision
and queues a microtask; a request is opened for the revision that it is noted under, so as long as the two
revisions agree the open request has all that are live. -/
namespace Applik8s.QueryClient
open Function (update update_of_ne update_self)
open Lib List Option Nat

def Notice.id : Notice → Nat
  | .subscribed id _ | .event id _ | .error id _ | .aborted id => id

def Notice.closes : Notice → Bool
  | .error _ _ | .aborted _ => true
  | _ => false

def Notice.tells : Notice → Bool
  | .event _ _ | .error _ _ => true
  | _ => false

/-- The cursor that a subscription came with, or that of the last event it was told, resets apart. -/
def lastCursor (id : Nat) (history : List Notice) : Option String :=
  history.foldl (fun last notice => match notice with
    | .subscribed other cursor => if other = id then some cursor else last
    | .event other event => if other = id then (cursorOf event).or last else last
    | _ => last) none

/-- Nobody is told anything after an error or an abort of theirs. -/
def Orderly (history : List Notice) : Prop :=
  history.Pairwise fun earlier later => earlier.closes → later.tells → later.id ≠ earlier.id

def Multiplexer.Restarts (multiplexer : Multiplexer) : Prop :=
  multiplexer.reconciledRevision ≠ multiplexer.restartRevision ∧
    (multiplexer.restartQueued = true ∨ multiplexer.reconciling ≠ none)

def Multiplexer.AtRest (multiplexer : Multiplexer) : Prop :=
  multiplexer.restartQueued = false ∧ multiplexer.reconciling = none

/-- At most one request is open, and the active one; every live subscription is of it or a restart is under
way; who was told an error or has aborted is told nothing more; the cursors are those of the last events;
and when all is at rest, the open request has all live subscriptions and besides them only such as were told
an error, or none is live. -/
structure Multiplexer.Sound (multiplexer : Multiplexer) : Prop where
  single : ∀ controller, (multiplexer.requests controller).isSome ↔ multiplexer.active = some controller
  covered : ∀ id ∈ multiplexer.live, multiplexer.Restarts ∨ ∃ controller request,
    multiplexer.active = some controller ∧ multiplexer.requests controller = some request ∧ id ∈ request.included
  orderly : Orderly multiplexer.history
  cursors : ∀ id ∈ multiplexer.live, lastCursor id multiplexer.history = some (multiplexer.objects id).cursor
  rest : multiplexer.AtRest → multiplexer.live = [] ∧ multiplexer.active = none ∨ ∃ controller request,
    multiplexer.active = some controller ∧ multiplexer.requests controller = some request ∧
      request.aborted = false ∧ (∀ id ∈ multiplexer.live, id ∈ request.included) ∧
      ∀ id ∈ request.included, id ∈ multiplexer.live ∨ ∃ message, .error id message ∈ multiplexer.history

/-- A request that is made has all live subscriptions; and what is sent of them goes on from their last
cursors. -/
structure Opens (multiplexer : Multiplexer) (event : Event) : Prop where
  all : (multiplexer.next event).made ≠ multiplexer.made → ∃ request,
    (multiplexer.next event).requests multiplexer.made = some request ∧ request.included = multiplexer.live
  sent : ∀ controller request, event = .send controller → multiplexer.requests controller = some request →
    ∀ sent ∈ multiplexer.body request, lastCursor sent.id multiplexer.history = some sent.subscription.cursor

variable {mux after : Multiplexer} {id controller : Nat} {request : Request} {reaction : List Call}
  {history : List Notice} {notice : Notice}

section
/-- What the subscriptions of the map, their objects and the history say of one another. -/
structure Multiplexer.Registered (multiplexer : Multiplexer) : Prop where
  distinct : multiplexer.live.Nodup
  known : ∀ id ∈ multiplexer.live, 0 < id ∧ id ≤ multiplexer.lastId
  closed : ∀ notice ∈ multiplexer.history, notice.closes → notice.id ∉ multiplexer.live
  told : ∀ notice ∈ multiplexer.history, notice.id ≤ multiplexer.lastId
  orderly : Orderly multiplexer.history
  cursors : ∀ id, 0 < id → id ≤ multiplexer.lastId →
    lastCursor id multiplexer.history = some (multiplexer.objects id).cursor

theorem orderly_snoc (orderly : Orderly hist)
    (fits : notice.tells → ∀ earlier ∈ hist, earlier.closes → notice.id ≠ earlier.id) :
    Orderly (hist ++ [notice]) := by
  refine pairwise_append.mpr ⟨orderly, pairwise_singleton _ _, ?_⟩
  intro earlier among later last closes tells
  obtain rfl := mem_singleton.mp last
  exact fits tells earlier among closes

theorem lastCursor_snoc : lastCursor id (hist ++ [notice]) = match notice with
    | .subscribed other cursor => if other = id then some cursor else lastCursor id hist
    | .event other event => if other = id then (cursorOf event).or (lastCursor id hist)
        else lastCursor id hist
    | _ => lastCursor id hist := by
  rw [lastCursor, foldl_append]
  rfl

variable (registered : mux.Registered)
include registered

namespace Multiplexer

theorem Registered.close (notice : Notice) (here : id ∈ mux.live) (same : notice.id = id)
    (closes : notice.closes = true) : Registered { mux with
      live := mux.live.erase id, history := mux.history ++ [notice] } where
  distinct := registered.distinct.erase _
  known other among := registered.known other (mem_of_mem_erase among)
  closed earlier among shut inside := by
    rcases mem_append.mp among with before | last
    · exact registered.closed earlier before shut (mem_of_mem_erase inside)
    obtain rfl := mem_singleton.mp last
    rw [same] at inside
    exact registered.distinct.not_mem_erase inside
  told earlier among := by
    rcases mem_append.mp among with before | last
    · exact registered.told earlier before
    obtain rfl := mem_singleton.mp last
    rw [same]
    exact (registered.known id here).2
  orderly := orderly_snoc registered.orderly fun _ earlier among shut same' =>
    registered.closed earlier among shut (by rw [← same', same]; exact here)
  cursors other positive le := by
    rw [lastCursor_snoc]
    cases notice with
    | error _ _ => exact registered.cursors other positive le
    | aborted _ => exact registered.cursors other positive le
    | _ => cases closes

theorem Registered.subscribe : (mux.subscribe query input cursor aborted).Registered := by
  unfold Multiplexer.subscribe
  split
  · exact registered
  have fresh : mux.lastId + 1 ∉ mux.live := fun among => by
    have := (registered.known _ among).2
    omega
  constructor
  · exact nodup_append'.mpr ⟨registered.distinct, nodup_singleton _, by simpa using fresh⟩
  · intro id among
    rcases mem_append.mp among with before | last
    · exact ⟨(registered.known id before).1, le_succ_of_le (registered.known id before).2⟩
    · obtain rfl := mem_singleton.mp last
      exact ⟨succ_pos _, le_refl _⟩
  · intro notice among shut inside
    rcases mem_append.mp among with before | last
    · rcases mem_append.mp inside with live | new
      · exact registered.closed notice before shut live
      · have := registered.told notice before
        rw [mem_singleton.mp new] at this
        omega
    · obtain rfl := mem_singleton.mp last
      cases shut
  · intro notice among
    rcases mem_append.mp among with before | last
    · exact le_succ_of_le (registered.told notice before)
    · obtain rfl := mem_singleton.mp last
      exact le_refl _
  · exact orderly_snoc registered.orderly nofun
  · intro id positive le
    change lastCursor id (mux.history ++ [.subscribed (mux.lastId + 1) cursor]) =
      some (update mux.objects (mux.lastId + 1) ⟨query, input, cursor⟩ id).cursor
    rw [lastCursor_snoc]
    dsimp only
    by_cases same : mux.lastId + 1 = id
    · subst same
      rw [if_pos rfl, update_self]
    rw [if_neg same, update_of_ne (Ne.symm same)]
    have : id ≤ mux.lastId + 1 := le
    exact registered.cursors id positive (by omega)

theorem Registered.perform :
    (mux.perform call).Registered := by
  cases call with
  | subscribe => exact registered.subscribe
  | abort id =>
    change (mux.abort id).Registered
    unfold abort
    split
    · next here =>
      have closed := registered.close (.aborted id) here rfl rfl
      exact ⟨closed.distinct, closed.known, closed.closed, closed.told, closed.orderly, closed.cursors⟩
    · exact registered

theorem Registered.performAll (calls : List Call) : (mux.performAll calls).Registered := by
  induction calls generalizing mux with
  | nil => exact registered
  | cons call rest ih => exact ih registered.perform

theorem Registered.fail (id : Nat) (msg : String) (reaction : List Call) : (mux.fail id msg reaction).Registered := by
  unfold Multiplexer.fail
  split
  · next here => exact (registered.close (.error id msg) here rfl rfl).performAll reaction
  · exact registered

theorem Registered.failIncluded : (mux.failIncluded msg reactions included).Registered := by
  induction included generalizing mux with
  | nil => exact registered
  | cons id rest ih => exact ih (registered.fail id msg (reactions id))

theorem Registered.deliver (here : id ∈ mux.live) : (mux.deliver id event reaction).Registered := by
  have told : Registered { mux with
      objects := update mux.objects id { mux.objects id with
        cursor := (cursorOf event).getD (mux.objects id).cursor }
      history := mux.history ++ [.event id event] } := by
    refine ⟨registered.distinct, registered.known, ?_, ?_, ?_, ?_⟩
    · intro notice among shut
      rcases mem_append.mp among with before | last
      · exact registered.closed notice before shut
      · obtain rfl := mem_singleton.mp last
        cases shut
    · intro notice among
      rcases mem_append.mp among with before | last
      · exact registered.told notice before
      · obtain rfl := mem_singleton.mp last
        exact (registered.known id here).2
    · refine orderly_snoc registered.orderly fun _ earlier among shut same => ?_
      exact registered.closed earlier among shut (same ▸ here)
    · intro other positive le
      rw [lastCursor_snoc]
      dsimp only
      by_cases same : id = other
      · subst same
        rw [if_pos rfl, update_self, registered.cursors id positive le]
        cases cursorOf event <;> rfl
      · rw [if_neg same, update_of_ne (Ne.symm same)]
        exact registered.cursors other positive le
  exact told.performAll reaction

end Multiplexer
end

/-- What calls out of a callback leave as it is: all but the subscriptions, unless a restart is queued. -/
structure Multiplexer.Follows (multiplexer after : Multiplexer) : Prop where
  active : after.active = multiplexer.active
  requests : after.requests = multiplexer.requests
  made : after.made = multiplexer.made
  lastId : multiplexer.lastId ≤ after.lastId
  reconciled : after.reconciledRevision = multiplexer.reconciledRevision
  reconciling : after.reconciling = multiplexer.reconciling
  revision : multiplexer.restartRevision ≤ after.restartRevision
  quiet : after.restartRevision = multiplexer.restartRevision →
    after.live = multiplexer.live ∧ after.restartQueued = multiplexer.restartQueued
  queued : multiplexer.restartRevision < after.restartRevision → after.restartQueued = true
  history : ∀ notice ∈ multiplexer.history, notice ∈ after.history

theorem Multiplexer.Follows.refl (mux : Multiplexer) : mux.Follows mux where
  active := rfl
  requests := rfl
  made := rfl
  lastId := le_refl _
  reconciled := rfl
  reconciling := rfl
  revision := le_refl _
  quiet _ := ⟨rfl, rfl⟩
  queued less := absurd less (lt_irrefl _)
  history _ := id

theorem Multiplexer.Follows.trans {last : Multiplexer} (one : mux.Follows after)
    (two : after.Follows last) : mux.Follows last where
  active := two.active.trans one.active
  requests := two.requests.trans one.requests
  made := two.made.trans one.made
  lastId := one.lastId.trans two.lastId
  reconciled := two.reconciled.trans one.reconciled
  reconciling := two.reconciling.trans one.reconciling
  revision := one.revision.trans two.revision
  quiet same := by
    have first : after.restartRevision = mux.restartRevision :=
      le_antisymm (two.revision.trans same.le) one.revision
    obtain ⟨live, queued⟩ := one.quiet first
    obtain ⟨live', queued'⟩ := two.quiet (same.trans first.symm)
    exact ⟨live'.trans live, queued'.trans queued⟩
  queued less := by
    rcases lt_or_ge after.restartRevision last.restartRevision with later | now
    · exact two.queued later
    have same := le_antisymm now two.revision
    rw [(two.quiet same).2]
    exact one.queued (same ▸ less)
  history notice among := two.history notice (one.history notice among)

theorem Multiplexer.follows_perform (mux : Multiplexer) (call : Call) : mux.Follows (mux.perform call) := by
  have revised : ∀ live objects lastId notice, mux.lastId ≤ lastId → mux.Follows (Multiplexer.scheduleRestart
        { mux with live, objects, lastId, history := mux.history ++ [notice] }) :=
    fun live objects lastId notice le => ⟨rfl, rfl, rfl, le, rfl, rfl, le_succ _,
      fun same => absurd same (succ_ne_self _), fun _ => rfl, fun _ => mem_append_left _⟩
  cases call with
  | subscribe query input cursor aborted =>
    change mux.Follows (mux.subscribe query input cursor aborted)
    unfold Multiplexer.subscribe
    split
    · exact .refl _
    · exact revised _ _ _ _ (le_succ _)
  | abort id =>
    change mux.Follows (mux.abort id)
    unfold Multiplexer.abort
    split
    · exact revised _ mux.objects mux.lastId _ (le_refl _)
    · exact .refl _

theorem Multiplexer.follows_performAll (mux : Multiplexer) (calls : List Call) :
    mux.Follows (mux.performAll calls) := by
  induction calls generalizing mux with
  | nil => exact .refl _
  | cons call rest ih => exact (mux.follows_perform call).trans (ih _)

/-- The two revisions, the request that is open and where `reconcile` is. -/
structure Multiplexer.Controlled (multiplexer : Multiplexer) : Prop where
  single : ∀ controller, (multiplexer.requests controller).isSome ↔ multiplexer.active = some controller
  behind : multiplexer.reconciledRevision ≤ multiplexer.restartRevision
  waiting : ∀ previous revision, multiplexer.reconciling = some (.waiting previous revision) →
    multiplexer.reconciledRevision < multiplexer.restartRevision ∧
      ∀ controller, multiplexer.active = some controller → controller = previous
  aborted : ∀ controller request, multiplexer.requests controller = some request → request.aborted = true →
    ∃ revision, multiplexer.reconciling = some (.waiting controller revision)
  progress : multiplexer.reconciledRevision < multiplexer.restartRevision →
    multiplexer.restartQueued = true ∨ multiplexer.reconciling ≠ none
  covered : multiplexer.reconciledRevision = multiplexer.restartRevision → ∀ id ∈ multiplexer.live,
    ∃ controller request, multiplexer.requests controller = some request ∧ id ∈ request.included
  ended : multiplexer.reconciledRevision = multiplexer.restartRevision → ∀ controller request,
    multiplexer.requests controller = some request → ∀ id ∈ request.included, id ∈ multiplexer.live ∨
      ∃ message, .error id message ∈ multiplexer.history

section
variable (controlled : mux.Controlled)
include controlled

namespace Multiplexer

theorem Controlled.follows (follows : mux.Follows after) : after.Controlled where
  single := by rw [follows.requests, follows.active]; exact controlled.single
  behind := by rw [follows.reconciled]; exact controlled.behind.trans follows.revision
  waiting := by
    rw [follows.reconciled, follows.reconciling, follows.active]
    exact fun prev rev is => ⟨(controlled.waiting prev rev is).1.trans_le follows.revision,
      (controlled.waiting prev rev is).2⟩
  aborted := by rw [follows.requests, follows.reconciling]; exact controlled.aborted
  progress less := by
    rcases eq_or_lt_of_le follows.revision with same | later
    · rw [(follows.quiet same.symm).2, follows.reconciling]
      rw [follows.reconciled, ← same] at less
      exact controlled.progress less
    · exact .inl (follows.queued later)
  covered same := by
    rw [follows.reconciled] at same
    have still := le_antisymm (same.symm.le.trans controlled.behind) follows.revision
    rw [(follows.quiet still).1, follows.requests]
    exact controlled.covered (same.trans still)
  ended same := by
    rw [follows.reconciled] at same
    have still := le_antisymm (same.symm.le.trans controlled.behind) follows.revision
    rw [(follows.quiet still).1, follows.requests]
    intro ctl req here id among
    rcases controlled.ended (same.trans still) ctl req here id among with live | ⟨msg, told⟩
    · exact .inl live
    · exact .inr ⟨msg, follows.history _ told⟩

theorem Controlled.fail :
    (mux.fail id msg reaction).Controlled := by
  unfold Multiplexer.fail
  split
  · refine Controlled.follows ?_ (follows_performAll _ reaction)
    refine { controlled with covered := ?_, ended := ?_ }
    · exact fun same other among => controlled.covered same other (mem_of_mem_erase among)
    intro same ctl req here other among
    by_cases is : other = id
    · subst is
      exact .inr ⟨msg, mem_append_right _ mem_cons_self⟩
    rcases controlled.ended same ctl req here other among with live | ⟨text, told⟩
    · exact .inl ((mem_erase_of_ne is).mpr live)
    · exact .inr ⟨text, mem_append_left _ told⟩
  · exact controlled

theorem Controlled.failIncluded : (mux.failIncluded msg reactions included).Controlled := by
  induction included generalizing mux with
  | nil => exact controlled
  | cons id rest ih => exact ih controlled.fail

theorem Controlled.deliver :
    (mux.deliver id event reaction).Controlled := by
  refine Controlled.follows ?_ (follows_performAll _ reaction)
  refine { controlled with ended := fun same ctl req here other among => ?_ }
  rcases controlled.ended same ctl req here other among with live | ⟨text, told⟩
  · exact .inl live
  · exact .inr ⟨text, mem_append_left _ told⟩

end Multiplexer
end

/-- Of the subscriptions that were to fail none is live, unless something has called since. -/
structure Multiplexer.Fails (multiplexer after : Multiplexer) (ids : List Nat) : Prop where
  active : after.active = multiplexer.active
  requests : after.requests = multiplexer.requests
  reconciled : after.reconciledRevision = multiplexer.reconciledRevision
  revision : multiplexer.restartRevision ≤ after.restartRevision
  live : after.restartRevision = multiplexer.restartRevision → ∀ id ∈ after.live, id ∈ multiplexer.live ∧ id ∉ ids

theorem Multiplexer.Registered.fails (registered : mux.Registered) (id : Nat) (msg : String)
    (reaction : List Call) : mux.Fails (mux.fail id msg reaction) [id] := by
  unfold Multiplexer.fail
  split
  · have follows := Multiplexer.follows_performAll { mux with
      live := mux.live.erase id, history := mux.history ++ [.error id msg] } reaction
    refine ⟨follows.active, follows.requests, follows.reconciled, follows.revision, fun same other among => ?_⟩
    rw [(follows.quiet same).1] at among
    refine ⟨mem_of_mem_erase among, fun is => ?_⟩
    rw [mem_singleton.mp is] at among
    exact registered.distinct.not_mem_erase among
  · next absent =>
    refine ⟨rfl, rfl, rfl, le_refl _, fun _ other among => ⟨among, fun is => absent ?_⟩⟩
    rwa [mem_singleton.mp is] at among

theorem Multiplexer.Registered.fails_all (registered : mux.Registered) (msg : String) (included : List Nat)
    (reactions : Nat → List Call) : mux.Fails (mux.failIncluded msg reactions included) included := by
  induction included generalizing mux with
  | nil => exact ⟨rfl, rfl, rfl, le_refl _, fun _ _ among => ⟨among, not_mem_nil⟩⟩
  | cons id rest ih =>
    have one := registered.fails id msg (reactions id)
    have others := ih (registered.fail id msg (reactions id))
    refine ⟨others.active.trans one.active, others.requests.trans one.requests,
      others.reconciled.trans one.reconciled, one.revision.trans others.revision, fun same other among => ?_⟩
    have first := le_antisymm (others.revision.trans same.le) one.revision
    obtain ⟨between, apart⟩ := others.live (same.trans first.symm) other among
    obtain ⟨before, apart'⟩ := one.live first other between
    exact ⟨before, by simpa using ⟨by simpa using apart', apart⟩⟩

/-- Nothing is registered, or told, in a step of `reconcile` itself. -/
theorem Multiplexer.Registered.same (registered : mux.Registered) (live : after.live = mux.live)
    (objects : after.objects = mux.objects) (lastId : after.lastId = mux.lastId)
    (hist : after.history = mux.history) : after.Registered where
  distinct := by rw [live]; exact registered.distinct
  known := by rw [live, lastId]; exact registered.known
  closed := by rw [live, hist]; exact registered.closed
  told := by rw [lastId, hist]; exact registered.told
  orderly := by rw [hist]; exact registered.orderly
  cursors := by rw [lastId, hist, objects]; exact registered.cursors

theorem Multiplexer.Registered.goOn (registered : mux.Registered) : mux.goOn.Registered := by
  unfold Multiplexer.goOn
  split
  · exact registered.same rfl rfl rfl rfl
  · split <;> exact registered.same rfl rfl rfl rfl

structure Multiplexer.Ready (multiplexer : Multiplexer) : Prop where
  single : ∀ controller, (multiplexer.requests controller).isSome ↔ multiplexer.active = some controller
  behind : multiplexer.reconciledRevision ≤ multiplexer.restartRevision
  unaborted : ∀ controller request, multiplexer.requests controller = some request → request.aborted = false
  covered : multiplexer.reconciledRevision = multiplexer.restartRevision → ∀ id ∈ multiplexer.live,
    ∃ controller request, multiplexer.requests controller = some request ∧ id ∈ request.included
  ended : multiplexer.reconciledRevision = multiplexer.restartRevision → ∀ controller request,
    multiplexer.requests controller = some request → ∀ id ∈ request.included, id ∈ multiplexer.live ∨
      ∃ message, .error id message ∈ multiplexer.history

namespace Multiplexer

theorem Ready.goOn (ready : mux.Ready) (opened : mux.active ≠ none) : mux.goOn.Controlled := by
  unfold Multiplexer.goOn
  split
  · exact {
      single := ready.single
      behind := ready.behind
      waiting := fun _ _ is => by cases is
      aborted := fun ctl req here aborted => by
        rw [ready.unaborted ctl req here] at aborted
        cases aborted
      progress := fun _ => .inr (some_ne_none _)
      covered := ready.covered
      ended := ready.ended }
  next changed =>
  have less := lt_of_le_of_ne ready.behind changed
  split
  · next prev active =>
    exact {
      single := fun ctl => by
        by_cases same : ctl = prev
        · subst same
          simpa [active] using ready.single ctl
        · simpa [update_of_ne same] using ready.single ctl
      behind := ready.behind
      waiting := fun previous' rev is => by
        cases is
        exact ⟨less, fun ctl here => some.inj (here.symm.trans active)⟩
      aborted := fun ctl req here aborted => by
        by_cases same : ctl = prev
        · subst same
          exact ⟨_, rfl⟩
        dsimp only at here
        rw [update_of_ne same] at here
        rw [ready.unaborted ctl req here] at aborted
        cases aborted
      progress := fun _ => .inr (some_ne_none _)
      covered := fun same => absurd same changed
      ended := fun same => absurd same changed }
  · next none_ => exact absurd none_ opened

theorem vacant (single : ∀ ctl, (mux.requests ctl).isSome ↔ mux.active = some ctl)
    (inactive : mux.active = none) (ctl : Nat) : mux.requests ctl = none := by
  have := single ctl
  rw [inactive] at this
  simpa using this

/-- The request that `reconcile` opens, after its headers have called back. -/
def opened (multiplexer : Multiplexer) (reaction : List Call) : Multiplexer :=
  { performAll { multiplexer with
      reconciledRevision := multiplexer.restartRevision
      requests := update multiplexer.requests multiplexer.made (some ⟨multiplexer.live, .headers, false⟩)
      made := multiplexer.made + 1 } reaction with active := some multiplexer.made }

theorem ready_opened (vacant : ∀ ctl, mux.requests ctl = none) : (mux.opened reaction).Ready := by
  have follows := follows_performAll { mux with
    reconciledRevision := mux.restartRevision
    requests := update mux.requests mux.made (some ⟨mux.live, .headers, false⟩)
    made := mux.made + 1 } reaction
  have only : ∀ ctl req, (mux.opened reaction).requests ctl = some req →
      ctl = mux.made ∧ req = ⟨mux.live, .headers, false⟩ := by
    intro ctl req here
    have here := (congrFun follows.requests ctl).symm.trans here
    dsimp only at here
    by_cases same : ctl = mux.made
    · subst same
      rw [update_self] at here
      exact ⟨rfl, (some.inj here).symm⟩
    · rw [update_of_ne same, vacant] at here
      cases here
  have there : (mux.opened reaction).requests mux.made =
      some ⟨mux.live, .headers, false⟩ := by
    refine (congrFun follows.requests mux.made).trans ?_
    exact update_self ..
  have quiet : (mux.opened reaction).reconciledRevision =
      (mux.opened reaction).restartRevision → (mux.opened reaction).live = mux.live :=
    fun same => (follows.quiet (same.symm.trans follows.reconciled)).1
  refine ⟨fun ctl => ?_, ?_, fun ctl req here => ?_, fun same id among => ?_, fun same ctl req here id among => ?_⟩
  · change _ ↔ some mux.made = some ctl
    constructor
    · intro present
      obtain ⟨req, here⟩ := isSome_iff_exists.mp present
      rw [(only ctl req here).1]
    · intro same
      rw [← some.inj same, there]
      rfl
  · exact (congrArg (· ≤ _) follows.reconciled).mpr follows.revision
  · rw [(only ctl req here).2]
  · rw [quiet same] at among
    exact ⟨_, _, there, among⟩
  · rw [(only ctl req here).2] at among
    exact .inl (by rw [quiet same]; exact among)

theorem launch_eq (filled : mux.live ≠ []) : mux.launch reaction = (mux.opened reaction).goOn := if_neg filled

theorem controlled_launch (vacant : ∀ ctl, mux.requests ctl = none) : (mux.launch reaction).Controlled := by
  by_cases empty : mux.live = []
  · rw [launch, if_pos empty]
    exact {
      single := fun ctl => by simp [vacant ctl]
      behind := le_refl _
      waiting := fun _ _ is => by cases is
      aborted := fun ctl req here => by rw [vacant ctl] at here; cases here
      progress := fun less => absurd less (lt_irrefl _)
      covered := fun _ id among => by rw [empty] at among; cases among
      ended := fun _ ctl req here => by rw [vacant ctl] at here; cases here }
  · rw [launch_eq empty]
    exact (ready_opened vacant).goOn (some_ne_none _)

theorem Registered.opened (registered : mux.Registered) : (mux.opened reaction).Registered := by
  have made : Registered { mux with
      reconciledRevision := mux.restartRevision
      requests := update mux.requests mux.made (some ⟨mux.live, .headers, false⟩)
      made := mux.made + 1 } := registered.same rfl rfl rfl rfl
  exact Registered.same (made.performAll reaction) rfl rfl rfl rfl

theorem Registered.launch (registered : mux.Registered) : (mux.launch reaction).Registered := by
  by_cases empty : mux.live = []
  · rw [Multiplexer.launch, if_pos empty]
    exact registered.same rfl rfl rfl rfl
  · rw [launch_eq empty]
    exact registered.opened.goOn

theorem Ready.reconcile (ready : mux.Ready) : (mux.reconcile reaction).Controlled := by
  unfold Multiplexer.reconcile
  split
  · exact {
      single := ready.single
      behind := ready.behind
      waiting := fun _ _ is => by cases is
      aborted := fun ctl req here aborted => by
        rw [ready.unaborted ctl req here] at aborted
        cases aborted
      progress := fun _ => .inr (some_ne_none _)
      covered := ready.covered
      ended := ready.ended }
  · split
    · next prev active => exact ready.goOn (by rw [active]; exact some_ne_none _)
    · next inactive => exact controlled_launch (vacant ready.single inactive)

theorem Registered.reconcile (registered : mux.Registered) : (mux.reconcile reaction).Registered := by
  unfold Multiplexer.reconcile
  split
  · exact registered.same rfl rfl rfl rfl
  split
  · exact registered.goOn
  · exact registered.launch

end Multiplexer

section
variable (controlled : mux.Controlled)
include controlled

namespace Multiplexer

theorem Controlled.unaborted (still : ∀ prev rev, mux.reconciling ≠ some (.waiting prev rev)) :
    ∀ ctl req, mux.requests ctl = some req → req.aborted = false := by
  intro ctl req here
  by_contra aborted
  obtain ⟨rev, waiting⟩ := controlled.aborted ctl req here (by simpa using aborted)
  exact still ctl rev waiting

theorem Controlled.microtask :
    (mux.microtask reaction).Controlled := by
  unfold Multiplexer.microtask
  split
  · split
    · next none_ =>
      have unaborted := controlled.unaborted fun prev rev is => by rw [none_] at is; cases is
      exact Ready.reconcile ⟨controlled.single, controlled.behind, unaborted, controlled.covered, controlled.ended⟩
    · next running =>
      exact { controlled with progress := fun _ => .inr (by rw [running]; exact some_ne_none _) }
  · exact controlled

theorem Controlled.resume :
    (mux.resume reaction).Controlled := by
  unfold Multiplexer.resume
  split
  · next prev rev waiting =>
    split
    · exact controlled
    next completed =>
    have inactive : mux.active = none := by
      by_contra active
      obtain ⟨ctl, is⟩ := ne_none_iff_exists'.mp active
      rw [(controlled.waiting prev rev waiting).2 ctl is] at is
      exact completed ((controlled.single prev).mpr is)
    have vacant := vacant controlled.single inactive
    split
    · exact controlled_launch vacant
    refine Ready.reconcile ⟨controlled.single, controlled.behind, fun ctl req here => ?_,
      controlled.covered, controlled.ended⟩
    rw [vacant] at here
    cases here
  · exact controlled

theorem Controlled.settle : mux.settle.Controlled := by
  unfold Multiplexer.settle
  split
  · next finished =>
    have unaborted := controlled.unaborted fun prev rev is => by rw [finished] at is; cases is
    exact { controlled with
      waiting := fun _ _ is => by cases is
      aborted := fun ctl req here aborted => by
        rw [unaborted ctl req here] at aborted
        cases aborted
      progress := fun less => .inl (by simp [less.ne']) }
  · exact controlled

end Multiplexer
end

theorem Multiplexer.setPhase_requests : (mux.setPhase ctl req phase).requests other =
      if other = ctl then some { req with phase } else mux.requests other :=
  Function.update_apply ..

theorem Multiplexer.Controlled.proceed (controlled : mux.Controlled) : (mux.proceed ctl before phase).Controlled := by
  unfold Multiplexer.proceed
  split
  · next req here =>
    split
    · have same : ∀ other found, (mux.setPhase ctl req phase).requests other = some found →
          ∃ held, mux.requests other = some held ∧ held.included = found.included ∧
            held.aborted = found.aborted := by
        intro other found there
        rw [Multiplexer.setPhase_requests] at there
        split at there
        · next is =>
          subst is
          cases there
          exact ⟨req, here, rfl, rfl⟩
        · exact ⟨found, there, rfl, rfl⟩
      refine { controlled with single := ?_, aborted := ?_, covered := ?_, ended := ?_ }
      · intro other
        refine Iff.trans ?_ (controlled.single other)
        rw [Multiplexer.setPhase_requests]
        split
        · next is => simp [is, here]
        · rfl
      · intro other found there aborted
        obtain ⟨held, is, -, alike⟩ := same other found there
        exact controlled.aborted other held is (alike.trans aborted)
      · intro still id among
        obtain ⟨other, held, is, inside⟩ := controlled.covered still id among
        by_cases at_ : other = ctl
        · subst at_
          cases here.symm.trans is
          exact ⟨other, { req with phase }, Multiplexer.setPhase_requests.trans (if_pos rfl), inside⟩
        · exact ⟨other, held, (Multiplexer.setPhase_requests.trans (if_neg at_)).trans is, inside⟩
      · intro still other found there id among
        obtain ⟨held, is, alike, -⟩ := same other found there
        exact controlled.ended still other held is id (alike ▸ among)
    · exact controlled
  · exact controlled

theorem Multiplexer.Controlled.finish (controlled : mux.Controlled) (registered : mux.Registered) (ctl : Nat)
    (msg : String) (reactions : Nat → List Call) : (mux.finish ctl msg reactions).Controlled := by
  unfold Multiplexer.finish
  split
  · exact controlled
  next req here =>
  have active := (controlled.single ctl).mp (by rw [here]; rfl)
  dsimp only
  generalize is : (if !req.aborted && mux.active = some ctl then
    mux.failIncluded msg reactions req.included else mux) = told
  have kept : told.Controlled ∧ told.active = some ctl ∧
      (told.reconciledRevision = told.restartRevision → told.live = []) := by
    subst is
    split
    · have fails := registered.fails_all msg req.included reactions
      have kept : (mux.failIncluded msg reactions req.included).Controlled :=
        controlled.failIncluded
      refine ⟨kept, fails.active.trans active, fun same => eq_nil_iff_forall_not_mem.mpr fun id among => ?_⟩
      rw [fails.reconciled] at same
      have still := le_antisymm (same.symm.le.trans controlled.behind) fails.revision
      obtain ⟨before, apart⟩ := fails.live still id among
      obtain ⟨other, found, there, inside⟩ := controlled.covered (same.trans still) id before
      have both := (controlled.single other).mp (by rw [there]; rfl)
      cases active.symm.trans both
      cases here.symm.trans there
      exact apart inside
    · next spared =>
      refine ⟨controlled, active, fun same => ?_⟩
      have aborted : req.aborted = true := by simpa [active] using spared
      obtain ⟨rev, waiting⟩ := controlled.aborted ctl req here aborted
      exact absurd same (controlled.waiting ctl rev waiting).1.ne
  obtain ⟨kept, active, empty⟩ := kept
  have vacant : ∀ other, update told.requests ctl none other = none := by
    intro other
    by_cases same : other = ctl
    · subst same
      exact update_self ..
    rw [update_of_ne same]
    have := kept.single other
    rw [active] at this
    simpa [Ne.symm same] using this
  rw [if_pos active]
  exact { kept with
    single := fun other => by simp [vacant other]
    waiting := fun prev rev waiting => ⟨(kept.waiting prev rev waiting).1, nofun⟩
    aborted := fun other found there => (some_ne_none _ (there.symm.trans (vacant other))).elim
    covered := fun same id among => by rw [empty same] at among; cases among
    ended := fun _ other found there => (some_ne_none _ (there.symm.trans (vacant other))).elim }

theorem Multiplexer.Registered.finish (registered : mux.Registered) (ctl : Nat) (msg : String)
    (reactions : Nat → List Call) : (mux.finish ctl msg reactions).Registered := by
  unfold Multiplexer.finish
  split
  · exact registered
  split
  · exact Multiplexer.Registered.same registered.failIncluded rfl rfl rfl rfl
  · exact registered.same rfl rfl rfl rfl

theorem Multiplexer.addressee_live (found : mux.addressee req frame = some id) : id ∈ mux.live := by
  obtain ⟨is, -⟩ := filter_eq_some_iff.mp found
  exact mem_of_find?_eq_some is

theorem Multiplexer.next_kept (registered : mux.Registered) (controlled : mux.Controlled)
    (event : Event) : (mux.next event).Registered ∧ (mux.next event).Controlled := by
  cases event with
  | call call => exact ⟨registered.perform, controlled.follows (mux.follows_perform call)⟩
  | microtask reaction =>
    refine ⟨?_, controlled.microtask⟩
    change (mux.microtask reaction).Registered
    unfold Multiplexer.microtask
    have taken : Multiplexer.Registered { mux with restartQueued := false } :=
      registered.same rfl rfl rfl rfl
    split
    · split
      · exact taken.reconcile
      · exact taken
    · exact registered
  | resume reaction =>
    refine ⟨?_, controlled.resume⟩
    change (mux.resume reaction).Registered
    unfold Multiplexer.resume
    split
    · split
      · exact registered
      · split
        · exact registered.launch
        · exact registered.reconcile
    · exact registered
  | settle =>
    refine ⟨?_, controlled.settle⟩
    change mux.settle.Registered
    unfold Multiplexer.settle
    split
    · exact registered.same rfl rfl rfl rfl
    · exact registered
  | send ctl | respond ctl =>
    refine ⟨?_, controlled.proceed⟩
    change (mux.proceed ctl _ _).Registered
    unfold Multiplexer.proceed
    split
    · split
      · exact registered.same rfl rfl rfl rfl
      · exact registered
    · exact registered
  | finish ctl msg reactions =>
    exact ⟨registered.finish ctl msg reactions, controlled.finish registered ctl msg reactions⟩
  | receive ctl data reactions =>
    change (mux.receive ctl data reactions).Registered ∧ (mux.receive ctl data reactions).Controlled
    unfold Multiplexer.receive
    split
    · next req here =>
      split
      · split
        · next msg =>
          exact ⟨registered.finish ctl msg reactions, controlled.finish registered ctl msg reactions⟩
        · next frame =>
          split
          · unfold Multiplexer.take
            split
            · exact ⟨registered, controlled⟩
            next id found =>
            dsimp only
            split
            · exact ⟨registered.fail _ _ _, controlled.fail⟩
            split
            · exact ⟨registered.fail _ _ _, controlled.fail⟩
            · exact ⟨registered.deliver (Multiplexer.addressee_live found), controlled.deliver⟩
          · exact ⟨registered.finish ctl _ reactions, controlled.finish registered ctl _ reactions⟩
      · exact ⟨registered, controlled⟩
    · exact ⟨registered, controlled⟩

theorem Multiplexer.sound (registered : mux.Registered) (controlled : mux.Controlled) : mux.Sound where
  single := controlled.single
  covered id among := by
    rcases eq_or_lt_of_le controlled.behind with same | less
    · obtain ⟨ctl, req, here, inside⟩ := controlled.covered same id among
      exact .inr ⟨ctl, req, (controlled.single ctl).mp (by rw [here]; rfl), here, inside⟩
    · exact .inl ⟨less.ne, controlled.progress less⟩
  orderly := registered.orderly
  cursors id among := registered.cursors id (registered.known id among).1 (registered.known id among).2
  rest still := by
    have same : mux.reconciledRevision = mux.restartRevision := by
      by_contra apart
      rcases controlled.progress (lt_of_le_of_ne controlled.behind apart) with queued | running
      · rw [still.1] at queued
        cases queued
      · exact running still.2
    cases active : mux.active with
    | none =>
      refine .inl ⟨eq_nil_iff_forall_not_mem.mpr fun id among => ?_, rfl⟩
      obtain ⟨ctl, req, here, -⟩ := controlled.covered same id among
      rw [Multiplexer.vacant controlled.single active] at here
      cases here
    | some ctl =>
      obtain ⟨req, here⟩ := isSome_iff_exists.mp ((controlled.single ctl).mpr active)
      refine .inr ⟨ctl, req, rfl, here, ?_, fun id among => ?_, controlled.ended same ctl req here⟩
      · exact controlled.unaborted (fun _ _ is => by rw [still.2] at is; cases is) ctl req here
      obtain ⟨other, _, there, inside⟩ := controlled.covered same id among
      have both := (controlled.single other).mp (by rw [there]; rfl)
      cases active.symm.trans both
      cases here.symm.trans there
      exact inside

/-- The included subscriptions of requests were made before. -/
def Multiplexer.Includes (multiplexer : Multiplexer) : Prop :=
  ∀ controller request, multiplexer.requests controller = some request → ∀ id ∈ request.included,
    0 < id ∧ id ≤ multiplexer.lastId

/-- A step opens no request but one of all live subscriptions, and changes what no other includes. -/
structure Multiplexer.Adds (multiplexer after : Multiplexer) : Prop where
  lastId : multiplexer.lastId ≤ after.lastId
  included : ∀ controller request, after.requests controller = some request →
    (∃ held, multiplexer.requests controller = some held ∧ held.included = request.included) ∨
      request.included = multiplexer.live
  made : after.made ≠ multiplexer.made → ∃ request,
    after.requests multiplexer.made = some request ∧ request.included = multiplexer.live

namespace Multiplexer

theorem Adds.of_requests (lastId : mux.lastId ≤ after.lastId) (reqs : after.requests = mux.requests)
    (made : after.made = mux.made) : mux.Adds after where
  lastId := lastId
  included ctl req here := .inl ⟨req, reqs ▸ here, rfl⟩
  made other := absurd made other

theorem fail_requests (mux : Multiplexer) (id : Nat) (msg : String)
    (reaction : List Call) : mux.lastId ≤ (mux.fail id msg reaction).lastId ∧
      (mux.fail id msg reaction).requests = mux.requests ∧
      (mux.fail id msg reaction).made = mux.made := by
  unfold fail
  split
  · have follows := follows_performAll { mux with
      live := mux.live.erase id, history := mux.history ++ [.error id msg] } reaction
    exact ⟨follows.lastId, follows.requests, follows.made⟩
  · exact ⟨le_refl _, rfl, rfl⟩

theorem adds_fail : mux.Adds (mux.fail id msg reaction) :=
  have ⟨lastId, reqs, made⟩ := mux.fail_requests id msg reaction
  .of_requests lastId reqs made

theorem failIncluded_requests (mux : Multiplexer) (msg : String) (included : List Nat) :
    mux.lastId ≤ (mux.failIncluded msg reactions included).lastId ∧
      (mux.failIncluded msg reactions included).requests = mux.requests ∧
      (mux.failIncluded msg reactions included).made = mux.made := by
  induction included generalizing mux with
  | nil => exact ⟨le_refl _, rfl, rfl⟩
  | cons id rest ih =>
    obtain ⟨lastId, reqs, made⟩ := mux.fail_requests id msg (reactions id)
    obtain ⟨lastId', requests', made'⟩ := ih (mux.fail id msg (reactions id))
    exact ⟨lastId.trans lastId', requests'.trans reqs, made'.trans made⟩

theorem adds_deliver : mux.Adds (mux.deliver id event reaction) := by
  have follows := follows_performAll { mux with
    objects := update mux.objects id { mux.objects id with
      cursor := (cursorOf event).getD (mux.objects id).cursor }
    history := mux.history ++ [.event id event] } reaction
  exact .of_requests follows.lastId follows.requests follows.made

theorem adds_finish :
    mux.Adds (mux.finish ctl msg reactions) := by
  unfold finish
  split
  · exact .of_requests (le_refl _) rfl rfl
  next req here =>
  generalize is : (if !req.aborted && mux.active = some ctl then
    mux.failIncluded msg reactions req.included else mux) = told
  obtain ⟨lastId, reqs, made⟩ : mux.lastId ≤ told.lastId ∧
      told.requests = mux.requests ∧ told.made = mux.made := by
    subst is
    split
    · exact mux.failIncluded_requests msg req.included
    · exact ⟨le_refl _, rfl, rfl⟩
  refine ⟨lastId, fun other found there => .inl ?_, fun apart => absurd made apart⟩
  change update told.requests ctl none other = some found at there
  by_cases same : other = ctl
  · subst same
    rw [update_self] at there
    cases there
  · rw [update_of_ne same, reqs] at there
    exact ⟨found, there, rfl⟩

theorem goOn_requests : mux.goOn.made = mux.made ∧ mux.goOn.lastId = mux.lastId ∧
      ∀ ctl, (mux.goOn.requests ctl).map (·.included) =
        (mux.requests ctl).map (·.included) := by
  unfold goOn
  split
  · exact ⟨rfl, rfl, fun _ => rfl⟩
  split
  · next prev active =>
    refine ⟨rfl, rfl, fun ctl => ?_⟩
    dsimp only
    by_cases same : ctl = prev
    · subst same
      rw [update_self, Option.map_map]
      rfl
    · rw [update_of_ne same]
  · exact ⟨rfl, rfl, fun _ => rfl⟩

theorem adds_goOn : mux.Adds mux.goOn := by
  obtain ⟨made, lastId, included⟩ := mux.goOn_requests
  refine ⟨lastId.ge, fun ctl req here => .inl ?_, fun apart => absurd made apart⟩
  have same := included ctl
  rw [here] at same
  obtain ⟨held, there, is⟩ := map_eq_some_iff.mp same.symm
  exact ⟨held, there, is⟩

theorem adds_launch : mux.Adds (mux.launch reaction) := by
  by_cases empty : mux.live = []
  · rw [launch, if_pos empty]
    exact .of_requests (le_refl _) rfl rfl
  rw [launch_eq empty]
  have follows := follows_performAll { mux with
    reconciledRevision := mux.restartRevision
    requests := update mux.requests mux.made (some ⟨mux.live, .headers, false⟩)
    made := mux.made + 1 } reaction
  obtain ⟨-, lastId, included⟩ := (mux.opened reaction).goOn_requests
  have at_ : ∀ controller, (mux.opened reaction).requests controller =
      update mux.requests mux.made (some ⟨mux.live, .headers, false⟩)
        controller := congrFun follows.requests
  refine ⟨?_, fun controller request here => ?_, fun _ => ?_⟩
  · rw [lastId]
    exact follows.lastId
  · have same := included controller
    rw [here, at_] at same
    by_cases new : controller = mux.made
    · subst new
      rw [update_self] at same
      exact .inr (some.inj same)
    · rw [update_of_ne new] at same
      obtain ⟨held, there, is⟩ := map_eq_some_iff.mp same.symm
      exact .inl ⟨held, there, is⟩
  · have same := included mux.made
    rw [at_, update_self] at same
    obtain ⟨request, here, is⟩ := map_eq_some_iff.mp same
    exact ⟨request, here, is⟩

theorem adds_reconcile : mux.Adds (mux.reconcile reaction) := by
  unfold reconcile
  split
  · exact .of_requests (le_refl _) rfl rfl
  split
  · exact adds_goOn
  · exact adds_launch

theorem adds_next (event : Event) : mux.Adds (mux.next event) := by
  have none_ : mux.Adds mux := .of_requests (le_refl _) rfl rfl
  cases event with
  | call call =>
    have follows := mux.follows_perform call
    exact .of_requests follows.lastId follows.requests follows.made
  | microtask reaction =>
    change mux.Adds (mux.microtask reaction)
    unfold microtask
    split
    · split
      · have adds : Adds { mux with restartQueued := false } (reconcile { mux with restartQueued := false } reaction) :=
          adds_reconcile
        exact ⟨adds.lastId, adds.included, adds.made⟩
      · exact .of_requests (le_refl _) rfl rfl
    · exact none_
  | resume reaction =>
    change mux.Adds (mux.resume reaction)
    unfold resume
    split
    · split
      · exact none_
      · split
        · exact adds_launch
        · exact adds_reconcile
    · exact none_
  | settle =>
    change mux.Adds mux.settle
    unfold settle
    split
    · exact .of_requests (le_refl _) rfl rfl
    · exact none_
  | send ctl | respond ctl =>
    change mux.Adds (mux.proceed ctl _ _)
    unfold proceed
    split
    · next req here =>
      split
      · refine ⟨le_refl _, fun other found there => .inl ?_, fun apart => absurd rfl apart⟩
        rw [setPhase_requests] at there
        split at there
        · next is =>
          subst is
          cases there
          exact ⟨req, here, rfl⟩
        · exact ⟨found, there, rfl⟩
      · exact none_
    · exact none_
  | finish => exact adds_finish
  | receive ctl data reactions =>
    change mux.Adds (mux.receive ctl data reactions)
    unfold receive
    split
    · next req here =>
      split
      · split
        · exact adds_finish
        · split
          · unfold take
            split
            · exact none_
            next id found =>
            dsimp only
            split
            · exact adds_fail
            split
            · exact adds_fail
            · exact adds_deliver
          · exact adds_finish
      · exact none_
    · exact none_

theorem Includes.next (includes : mux.Includes) (registered : mux.Registered)
    (event : Event) : (mux.next event).Includes := by
  have adds := mux.adds_next event
  intro ctl req here id among
  rcases adds.included ctl req here with ⟨held, there, same⟩ | same
  · have known := includes ctl held there id (same ▸ among)
    exact ⟨known.1, known.2.trans adds.lastId⟩
  · have known := registered.known id (same ▸ among)
    exact ⟨known.1, known.2.trans adds.lastId⟩

theorem opens (registered : mux.Registered) (includes : mux.Includes) (event : Event) : Opens mux event where
  all := (mux.adds_next event).made
  sent ctl req _ here sent among := by
    obtain ⟨id, inside, rfl⟩ := mem_map.mp among
    have known := includes ctl req here id inside
    exact registered.cursors id known.1 known.2

end Multiplexer

structure Multiplexer.Kept (multiplexer : Multiplexer) : Prop where
  registered : multiplexer.Registered
  controlled : multiplexer.Controlled
  includes : multiplexer.Includes

theorem kept_start : ({} : Multiplexer).Kept := by
  refine ⟨⟨nodup_nil, nofun, nofun, nofun, List.Pairwise.nil, fun id positive le => ?_⟩,
    ⟨fun _ => by simp, le_refl _, nofun, nofun, nofun, fun _ _ => nofun, fun _ => nofun⟩, nofun⟩
  have : id ≤ 0 := le
  omega

theorem Multiplexer.Kept.next (kept : mux.Kept) (event : Event) : (mux.next event).Kept :=
  have ⟨registered, controlled⟩ := mux.next_kept kept.registered kept.controlled event
  ⟨registered, controlled, kept.includes.next kept.registered event⟩

/-- However subscriptions come and go, requests fail and frames arrive: the multiplexer stays sound, and
every request that is made has all live subscriptions, from their last cursors on. -/
theorem subscriptions_survive (events : List Event) :
    (runFrom Multiplexer.next {} events).Sound ∧ EachStep Multiplexer.next Opens {} events := by
  have always : EachStep Multiplexer.next (fun _ _ => True) {} events := eachStep_of_always fun _ _ _ => trivial
  have kept := invariant_of_steps Multiplexer.Kept (fun _ event held _ => held.next event) kept_start always
  have each := eachStep_of_steps Multiplexer.Kept (fun _ event held _ => held.next event) kept_start always
  exact ⟨Multiplexer.sound kept.registered kept.controlled,
    each.imp fun event _ _ held => Multiplexer.opens held.1.registered held.1.includes event⟩

/-- A subscription is made, its request is answered, and it is sent a frame. -/
def answered (frame : Json) : Multiplexer :=
  runFrom Multiplexer.next {} [.call (.subscribe "orders" .null "0" false), .microtask [], .settle, .send 0,
    .respond 0, .receive 0 (.ok frame) fun _ => []]

def frameOf (members : List (String × Json)) : Json :=
  .object (("protocol", .string "applik8s.query-multiplex/v1alpha1") ::
    ("subscriptionId", .string "subscription-1") :: members)

def refusal : Json := frameOf [("kind", .string "error"), ("error", .string "forbidden")]

def resetting : Json := frameOf [("kind", .string "event"), ("event", .object
  [("protocol", .string "applik8s.query/v1alpha1"), ("kind", .string "reset"), ("query", .string "orders"),
    ("id", .string "1")])]

/-- Who is refused by itself stays in the open request; and a reset leaves the cursor as it is. -/
theorem refused_subscription_stays :
    ((answered refusal).AtRest ∧ (answered refusal).live = [] ∧ (answered refusal).active = some 0 ∧
        (answered refusal).requests 0 = some ⟨[1], .streaming, false⟩) ∧
      (answered resetting).AtRest ∧ (answered resetting).live = [1] ∧ ((answered resetting).objects 1).cursor = "0" ∧
        ∃ event, (answered resetting).history.getLast? = some (.event 1 event) ∧ member "cursor" event = none := by
  refine ⟨⟨⟨rfl, rfl⟩, rfl, rfl, ?_⟩, ⟨rfl, rfl⟩, rfl, ?_, ?_⟩
  · decide +kernel
  · decide +kernel
  · exact ⟨_, rfl, rfl⟩

end Applik8s.QueryClient
