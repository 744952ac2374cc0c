import Applik8s.Mcp.Sessions

/-! Sessions and catalog references agree: an open session is recorded against its revision, which is not
retired, and a closed one against none. The transactions of the store see to it, unless a session is inserted
whose catalog has been retired since it was read, or a reference is written once more after its session was
closed, or a catalog is retired although a session was recorded since its references were read. -/
namespace Applik8s.Mcp
open Lib Authority List Except
open Table (find?_eq_some find?_put mem_put mem_remove)
variable {runtime : Runtime} {world world' : World} {session : Session} {revision id : String} {choice : Choice}

section
variable (runtime : Runtime) (world : World)

/-- A `session` reference of the revision. -/
def World.Refers (revision id : String) : Prop :=
  ∃ reference ∈ (world.catalogs.references runtime.application).rows,
    Keyed.key reference = (revision, ReferenceKind.session, id)

def World.Stands (revision : String) : Prop :=
  ∀ catalog, world.catalogs.catalogs.find? (runtime.application, revision) = some catalog → catalog.state ≠ .retired

structure World.Agrees : Prop where
  active : ∀ session ∈ world.sessions.rows, session.state = .active →
    world.Refers runtime session.catalogRevision session.id ∧ world.Stands runtime session.catalogRevision
  closed : ∀ session ∈ world.sessions.rows, session.state = .closed →
    ∀ revision, ¬ world.Refers runtime revision session.id

def World.putting : Option CatalogRecord :=
  match world.desk.running with
  | some ⟨_, _, .call (.put record) _⟩ => some record
  | _ => none

/-- No session is inserted on a retired revision, no reference written again for a closed session, and no
revision marked retired against which a session is recorded. -/
def World.Careful (choice : Choice) : Request → Prop
  | .createSession session => choice.takes = true → world.sessions.find? session.id = none →
    world.Stands runtime session.catalogRevision
  | .reference _ sessionId => choice.takes = true → ∀ session, world.sessions.find? sessionId = some session →
    session.state ≠ .closed
  | .turn => ∀ record, world.putting = some record → record.state = .retired →
    ∀ reference ∈ (world.catalogs.references record.application).rows,
      reference.revision = record.revision → reference.kind ≠ .session
  | _ => True

def Careful (system : System) : Event → Prop
  | .step caller choice => system.Asks caller (system.world.Careful runtime choice)
  | _ => True

instance (revision : String) : Decidable (world.Stands runtime revision) :=
  inferInstanceAs (Decidable (∀ catalog ∈ world.catalogs.catalogs.find? (runtime.application, revision),
    catalog.state ≠ .retired))

instance (choice : Choice) : ∀ request, Decidable (world.Careful runtime choice request)
  | .createSession session => inferInstanceAs (Decidable (choice.takes = true →
      world.sessions.find? session.id = none → world.Stands runtime session.catalogRevision))
  | .reference _ sessionId => inferInstanceAs (Decidable (choice.takes = true →
      ∀ session ∈ world.sessions.find? sessionId, session.state ≠ .closed))
  | .turn => inferInstanceAs (Decidable (∀ record ∈ world.putting, record.state = .retired →
      ∀ reference ∈ (world.catalogs.references record.application).rows,
        reference.revision = record.revision → reference.kind ≠ .session))
  | .clock | .identifier | .active | .bindTools _ _ _ | .getSession _ | .replaceSession _ _
  | .listSessions _ _ _ | .release _ _ | .submit _ => inferInstanceAs (Decidable True)

instance (system : System) : ∀ event, Decidable (Careful runtime system event)
  | .start _ _ | .stop _ => inferInstanceAs (Decidable True)
  | .step caller choice => system.decideAsks caller fun request : Request =>
      inferInstanceAs (Decidable (system.world.Careful runtime choice request))

end

/-- The references of the sessions are those of the open ones, and their revisions stand. -/
structure World.Sound (runtime : Runtime) (world : World) : Prop where
  opened : ∀ session ∈ world.sessions.rows, session.state ≠ .closed →
    world.Refers runtime session.catalogRevision session.id ∧ world.Stands runtime session.catalogRevision
  referred : ∀ revision id, world.Refers runtime revision id → ∃ session,
    world.sessions.find? id = some session ∧ session.catalogRevision = revision ∧ session.state ≠ .closed

namespace World

theorem Sound.agrees (sound : world.Sound runtime) : world.Agrees runtime where
  active session among state := sound.opened session among (by simp [state])
  closed session among state rev refers := by
    obtain ⟨_, here, -, opened⟩ := sound.referred rev session.id refers
    have found : world.sessions.find? session.id = some session := find?_eq_some.mpr ⟨among, rfl⟩
    cases here.symm.trans found
    exact opened state

theorem refers_put :
    (world.write (.put runtime.application (sessionReference rev id))).Refers runtime = fun other id' =>
      (other = rev ∧ id' = id) ∨ world.Refers runtime other id' := by
  funext other id'
  unfold Refers write catalogs CatalogStore.write CatalogStore.withReferences
  dsimp only
  rw [Function.update_self]
  refine propext ⟨?_, ?_⟩
  · rintro ⟨ref, among, key⟩
    rcases mem_put.mp among with rfl | ⟨before, -⟩
    · obtain ⟨same, rest⟩ := Prod.mk.inj key
      exact .inl ⟨same.symm, (Prod.mk.inj rest).2.symm⟩
    · exact .inr ⟨ref, before, key⟩
  · rintro (⟨rfl, rfl⟩ | ⟨ref, among, key⟩)
    · exact ⟨_, mem_put.mpr (.inl rfl), rfl⟩
    · by_cases same : Keyed.key ref = Keyed.key (sessionReference rev id).stored
      · exact ⟨_, mem_put.mpr (.inl rfl), same.symm.trans key⟩
      · exact ⟨ref, mem_put.mpr (.inr ⟨among, same⟩), key⟩

theorem refers_remove : (world.write (.remove runtime.application rev .session id)).Refers runtime = fun other id' =>
      world.Refers runtime other id' ∧ ¬(other = rev ∧ id' = id) := by
  funext other id'
  unfold Refers write catalogs CatalogStore.write CatalogStore.withReferences
  dsimp only
  rw [Function.update_self]
  refine propext ⟨?_, ?_⟩
  · rintro ⟨ref, among, key⟩
    obtain ⟨before, apart⟩ := mem_remove.mp among
    refine ⟨⟨ref, before, key⟩, ?_⟩
    rintro ⟨rfl, rfl⟩
    exact apart key
  · rintro ⟨⟨ref, among, key⟩, apart⟩
    refine ⟨ref, mem_remove.mpr ⟨among, fun same => apart ?_⟩, key⟩
    obtain ⟨same, rest⟩ := Prod.mk.inj (key.symm.trans same)
    exact ⟨same, (Prod.mk.inj rest).2⟩

theorem refers_putCatalogReference (trimmed : runtime.stored = runtime.application) :
    (world.putCatalogReference runtime rev id).Refers runtime = fun other id' =>
      (other = rev ∧ id' = id) ∨ world.Refers runtime other id' := by
  unfold putCatalogReference
  rw [trimmed]
  split
  · next ref found =>
    obtain ⟨among, key⟩ := find?_eq_some.mp found
    funext other id'
    refine propext ⟨.inr, ?_⟩
    rintro (⟨rfl, rfl⟩ | refers)
    · exact ⟨ref, among, key⟩
    · exact refers
  · exact refers_put

theorem putCatalogReference_sessions :
    (world.putCatalogReference runtime rev id).sessions = world.sessions := by
  unfold putCatalogReference
  split <;> rfl

theorem putCatalogReference_stands :
    (world.putCatalogReference runtime rev id).Stands runtime = world.Stands runtime := by
  unfold putCatalogReference
  split <;> rfl

end World

theorem assertImmutableSessionIdentity_ok (kept : assertImmutableSessionIdentity cur session = .ok ()) :
    cur.immutable = session.immutable := by
  unfold assertImmutableSessionIdentity at kept
  split at kept
  · cases kept
  · next same => simpa [Session.immutable] using same

namespace World

theorem createSession_ok (done : world.createSession runtime session = .ok (answered, world')) :
    assertSession runtime session = .ok () ∧ world.sessions.find? session.id = none ∧
      world' = putCatalogReference runtime session.catalogRevision session.id
        { world with sessions := world.sessions.put session } := by
  obtain ⟨_, valid, done⟩ := bind_ok done
  split at done
  · cases done
  · next absent => exact ⟨valid, absent, (Prod.mk.inj (ok.inj done)).2.symm⟩

theorem replaceSession_ok (done : world.replaceSession runtime session expectedVersion = .ok (answered, world')) :
    assertSession runtime session = .ok () ∧ ∃ cur,
      world.sessions.find? session.id = some cur ∧ cur.immutable = session.immutable ∧
        world' = if session.state = .closed
          then removeCatalogReference runtime session.catalogRevision session.id
            { world with sessions := world.sessions.put session }
          else putCatalogReference runtime session.catalogRevision session.id
            { world with sessions := world.sessions.put session } := by
  obtain ⟨_, valid, done⟩ := bind_ok done
  obtain ⟨_, -, done⟩ := bind_ok done
  split at done
  · cases done
  next cur found =>
  obtain ⟨_, kept, done⟩ := bind_ok done
  exact ⟨valid, cur, (Option.filter_eq_some_iff.mp found).1, assertImmutableSessionIdentity_ok kept,
    (Prod.mk.inj (ok.inj done)).2.symm⟩

/-- Sessions keep their revisions, and closed ones stay closed. -/
def Follows (world world' : World) : Prop :=
  ∀ id session, world.sessions.find? id = some session → ∃ session', world'.sessions.find? id = some session' ∧
    session'.catalogRevision = session.catalogRevision ∧ (session.state = .closed → session'.state = .closed)

theorem Follows.of_same (same : world'.sessions = world.sessions) : world.Follows world' := by
  intro id session here
  rw [same]
  exact ⟨session, here, rfl, fun closed => closed⟩

/-- A session is written, whose row if any was of the same revision and not closed unless it is. -/
theorem Follows.put
    (same : ∀ cur, world.sessions.find? session.id = some cur → session.catalogRevision = cur.catalogRevision ∧ (cur.state = .closed → session.state = .closed))
    (written : world'.sessions = world.sessions.put session) : world.Follows world' := by
  intro id cur here
  rw [written, find?_put]
  split
  · next own =>
    subst own
    exact ⟨session, rfl, same cur here⟩
  · exact ⟨cur, here, rfl, fun closed => closed⟩

theorem Sound.create (trimmed : runtime.stored = runtime.application) (sound : world.Sound runtime)
    (absent : world.sessions.find? session.id = none) (opened : session.state = .active)
    (stands : world.Stands runtime session.catalogRevision)
    (written : world' = putCatalogReference runtime session.catalogRevision session.id
      { world with sessions := world.sessions.put session }) :
    world'.Sound runtime ∧ world.Follows world' ∧ world'.sessions.find? session.id = some session := by
  have sessions : world'.sessions = world.sessions.put session := by
    rw [written, putCatalogReference_sessions]
  have refers : world'.Refers runtime = fun rev id =>
      (rev = session.catalogRevision ∧ id = session.id) ∨ world.Refers runtime rev id := by
    rw [written, refers_putCatalogReference trimmed]
    rfl
  have standing : world'.Stands runtime = world.Stands runtime := by
    rw [written, putCatalogReference_stands]
    rfl
  have stored : world'.sessions.find? session.id = some session := by
    rw [sessions]
    exact (find?_put _).trans (if_pos rfl)
  refine ⟨⟨fun other among state => ?_, fun rev id refers' => ?_⟩, .put (fun cur here => ?_) sessions, stored⟩
  · rw [refers, standing]
    rw [sessions] at among
    rcases mem_put.mp among with rfl | ⟨before, -⟩
    · exact ⟨.inl ⟨rfl, rfl⟩, stands⟩
    · obtain ⟨referred, stands'⟩ := sound.opened other before state
      exact ⟨.inr referred, stands'⟩
  · rw [refers] at refers'
    rcases refers' with ⟨rfl, rfl⟩ | before
    · exact ⟨session, stored, rfl, by simp [opened]⟩
    obtain ⟨other, here, same, state⟩ := sound.referred rev id before
    refine ⟨other, ?_, same, state⟩
    rw [sessions, find?_put, if_neg, here]
    rintro rfl
    have absent : world.sessions.find? (Keyed.key session) = none := absent
    rw [absent] at here
    cases here
  · rw [absent] at here
    cases here

theorem Sound.close (trimmed : runtime.stored = runtime.application) (sound : world.Sound runtime)
    (here : world.sessions.find? session.id = some cur) (rev : session.catalogRevision = cur.catalogRevision)
    (state : session.state = .closed)
    (written : world' = removeCatalogReference runtime session.catalogRevision session.id { world with sessions := world.sessions.put session })
    : world'.Sound runtime ∧ world.Follows world' ∧ world'.sessions.find? session.id = some session := by
  have sessions : world'.sessions = world.sessions.put session := by
    rw [written]
    rfl
  have refers : world'.Refers runtime = fun rev id =>
      world.Refers runtime rev id ∧ ¬(rev = session.catalogRevision ∧ id = session.id) := by
    rw [written, removeCatalogReference, trimmed, refers_remove]
    rfl
  have standing : world'.Stands runtime = world.Stands runtime := by
    rw [written]
    rfl
  have stored : world'.sessions.find? session.id = some session := by
    rw [sessions]
    exact (find?_put _).trans (if_pos rfl)
  refine ⟨⟨fun other among opened => ?_, fun other id refers' => ?_⟩, .put ?_ sessions, stored⟩
  · rw [refers, standing]
    rw [sessions] at among
    rcases mem_put.mp among with rfl | ⟨before, apart⟩
    · exact absurd state opened
    · obtain ⟨referred, stands⟩ := sound.opened other before opened
      exact ⟨⟨referred, fun same => apart same.2⟩, stands⟩
  · rw [refers] at refers'
    obtain ⟨before, apart⟩ := refers'
    obtain ⟨session', there, same, opened⟩ := sound.referred other id before
    refine ⟨session', ?_, same, opened⟩
    rw [sessions, find?_put, if_neg, there]
    rintro rfl
    cases there.symm.trans here
    exact apart ⟨same.symm.trans rev.symm, rfl⟩
  · intro current' there
    cases there.symm.trans here
    exact ⟨rev, fun _ => state⟩

theorem Sound.reference (sound : world.Sound runtime) (here : world.sessions.find? id = some session)
    (same : session.catalogRevision = rev) (opened : session.state ≠ .closed) :
    Sound runtime (world.write (.put runtime.application (sessionReference rev id))) where
  opened other among state := by
    rw [refers_put]
    obtain ⟨referred, stands⟩ := sound.opened other among state
    exact ⟨.inr referred, stands⟩
  referred other id' refers := by
    rw [refers_put] at refers
    rcases refers with ⟨rfl, rfl⟩ | before
    · exact ⟨session, here, same, opened⟩
    · exact sound.referred other id' before

theorem Sound.release (rev : String) (sound : world.Sound runtime)
    (here : world.sessions.find? id = some session) (state : session.state = .closed) :
    Sound runtime (world.write (.remove runtime.application rev .session id)) where
  opened other among opened := by
    rw [refers_remove]
    obtain ⟨referred, stands⟩ := sound.opened other among opened
    refine ⟨⟨referred, ?_⟩, stands⟩
    rintro ⟨-, rfl⟩
    have found : world.sessions.find? other.id = some other := find?_eq_some.mpr ⟨among, rfl⟩
    cases here.symm.trans found
    exact opened state
  referred other id' refers := by
    rw [refers_remove] at refers
    exact sound.referred other id' refers.1

theorem Sound.setDesk {desk : CatalogDesk} (sound : world.Sound runtime)
    (references : desk.world.references = world.catalogs.references)
    (stands : ∀ session ∈ world.sessions.rows, session.state ≠ .closed →
      Stands runtime { world with desk } session.catalogRevision) :
    Sound runtime { world with desk } := by
  have refers : Refers runtime { world with desk } = world.Refers runtime := by
    unfold Refers catalogs
    rw [references]
    rfl
  refine ⟨fun session among opened => ?_, ?_⟩
  · rw [refers]
    exact ⟨(sound.opened session among opened).1, stands session among opened⟩
  · rw [refers]
    exact sound.referred

theorem Sound.turn (sound : world.Sound runtime) (careful : world.Careful runtime choice .turn) :
    Sound runtime { world with desk := world.desk.advance .turn } := by
  rcases Desk.world_turn catalogFloor CatalogOperation.body world.desk fun _ => rfl with
    same | ⟨op, origin, req, rest, running, same⟩
  · refine sound.setDesk (congrArg CatalogStore.references same) fun session among opened => ?_
    have stands := (sound.opened session among opened).2
    unfold Stands catalogs CatalogDesk.advance
    rw [same]
    exact stands
  have references : (CatalogStore.answer req world.desk.world).2.references = world.catalogs.references := by
    cases req <;> rfl
  refine sound.setDesk ((congrArg CatalogStore.references same).trans references) fun session among opened => ?_
  obtain ⟨⟨ref, listed, key⟩, stands⟩ := sound.opened session among opened
  unfold Stands catalogs CatalogDesk.advance
  rw [same]
  cases req with
  | lock app | list app | get key | references key => exact stands
  | put record =>
    intro catalog found
    change (world.desk.world.catalogs.put record).find? _ = _ at found
    rw [find?_put] at found
    split at found
    · next own =>
      cases found
      intro retired
      obtain ⟨app, rev⟩ := Prod.mk.inj own
      obtain ⟨revision', kind⟩ := Prod.mk.inj key
      have putting : world.putting = some record := by
        unfold putting
        rw [running]
      refine careful record putting retired ref ?_ ?_ (Prod.mk.inj kind).1
      · rw [← app]
        exact listed
      · exact revision'.trans rev
    · exact stands catalog found

end World

/-- What a call has learnt: which sessions it has inserted, and which it knows to be closed. -/
structure Learnt where
  created : List (String × String) := []
  closed : List String := []

def permits (learnt : Learnt) : Request → Prop
  | .createSession session => session.state = .active
  | .replaceSession session _ => session.state = .closed
  | .reference revision sessionId => (revision, sessionId) ∈ learnt.created
  | .release _ sessionId => sessionId ∈ learnt.closed
  | _ => True

def afterwards (learnt : Learnt) : (request : Request) → request.Reply → Learnt
  | .createSession session, .ok _ =>
    { learnt with created := (session.catalogRevision, session.id) :: learnt.created }
  | .replaceSession session _, .ok _ => { learnt with closed := session.id :: learnt.closed }
  | .listSessions _ _ _, .ok sessions =>
    { learnt with closed := (sessions.filter (·.state = .closed)).map Session.id ++ learnt.closed }
  | _, _ => learnt

def conduct : Conduct Stores Learnt where
  permits := permits
  answers _ _ := True
  after := afterwards

theorem assertSessionPrincipal_ok (admitted : assertSessionPrincipal runtime session principal now = .ok ())
    : session.state = .active := by
  obtain ⟨_, -, admitted⟩ := bind_ok admitted
  split at admitted
  · cases admitted
  split at admitted
  · cases admitted
  · next available =>
    simp only [Bool.or_eq_true, decide_eq_true_eq, not_or, not_not] at available
    exact available.1.1

theorem obeys_await {learnt : Learnt} {α β : Type} {out : McpProgram (Except Failure α)} {next : α → McpProgram β}
    {close : Learnt → Except Failure β → Prop}
    (obeys : Obeys conduct (fun now (res : Except Failure (Except Failure α)) => match res with | .ok (.ok value) => Obeys conduct close now (next value) | .ok (.error err) | .error err => close now (.error err)) learnt out)
    : Obeys conduct close learnt (await out >>= next) := by
  refine obeys_bind.mpr (obeys_bind.mpr (obeys.weaken ?_))
  rintro _ (err | _ | _) held
  · exact held
  · exact obeys_check.mpr held
  · exact obeys_check.mpr held

theorem obeys_initializeSession (defn : Definition) (protocolVersion : String) (principal : Principal) :
    Obeys conduct (fun _ _ => True) learnt (initializeSession runtime defn protocolVersion principal) := by
  refine obeys_check_bind (fun _ _ => trivial) fun _ _ => ?_
  refine obeys_check_bind (fun _ _ => trivial) fun _ _ => ?_
  refine obeys_await ⟨trivial, ?_⟩
  rintro (err | _) -
  · trivial
  refine obeys_await ⟨trivial, ?_⟩
  rintro (err | _) -
  · trivial
  refine obeys_request trivial fun now _ => obeys_request trivial fun ident _ => ?_
  refine obeys_await ⟨rfl, ?_⟩
  rintro (err | _) -
  · trivial
  refine obeys_request mem_cons_self ?_
  rintro (_ | _) -
  · refine obeys_await ⟨trivial, ?_⟩
    rintro (_ | _ | _) -
    · trivial
    · trivial
    · refine obeys_await ⟨rfl, ?_⟩
      rintro (_ | _) - <;> trivial
  · trivial

theorem obeys_close (defn : Definition) (sessionId : String) (principal : Principal) :
    Obeys conduct (fun _ _ => True) learnt (close runtime defn sessionId principal) := by
  refine obeys_check_bind (fun _ _ => trivial) fun _ _ => ?_
  refine obeys_await ⟨trivial, ?_⟩
  rintro (err | _) -
  · trivial
  refine obeys_check_bind (fun _ _ => trivial) fun session _ => ?_
  refine obeys_request trivial fun now _ => ?_
  refine obeys_check_bind (fun _ _ => trivial) fun _ admitted => ?_
  have active := assertSessionPrincipal_ok admitted
  rw [if_pos (by simp [active])]
  refine obeys_await ⟨rfl, ?_⟩
  rintro (_ | _) -
  · trivial
  · exact ⟨mem_cons_self, fun _ _ => obeys_check.mpr trivial⟩

theorem obeys_releaseSession (holds : Learnt → Prop) (here : holds learnt) (known : session.id ∈ learnt.closed) :
    Obeys conduct (fun now _ => holds now) learnt (releaseSession session) := by
  refine obeys_request known ?_
  rintro (_ | _) - <;> exact here

theorem obeys_reapSession (holds : Learnt → Prop) (here : holds learnt)
    (grows : ∀ learnt ids, holds learnt → holds { learnt with closed := ids ++ learnt.closed })
    (known : session.state = .closed → session.id ∈ learnt.closed) :
    Obeys conduct (fun now _ => holds now) learnt (reapSession runtime now session) := by
  unfold reapSession
  split
  · exact here
  split
  · refine obeys_request rfl ?_
    rintro (_ | _) -
    · exact here
    · exact obeys_releaseSession holds (grows learnt [_] here) mem_cons_self
  · next closed => exact obeys_releaseSession holds here (known (by simpa using closed))

theorem obeys_reapExpiredSessions (defn : Definition) (limit : Int) :
    Obeys conduct (fun _ _ => True) learnt (reapExpiredSessions runtime defn limit) := by
  refine obeys_check_bind (fun _ _ => trivial) fun _ _ => ?_
  refine obeys_request trivial fun now _ => ?_
  refine obeys_await ⟨trivial, ?_⟩
  rintro (err | sessions) -
  · trivial
  -- a closed session of the listing is known to be closed, whatever else is learnt
  let Knows (learnt : Learnt) : Prop := ∀ session ∈ sessions, session.state = .closed → session.id ∈ learnt.closed
  have first : Knows (afterwards learnt (.listSessions defn.id [.active, .draining, .closed] limit)
      (.ok sessions)) := by
    intro session among closed
    exact mem_append_left _ (mem_map_of_mem (mem_filter.mpr ⟨among, by simpa using closed⟩))
  have loop : Obeys conduct (fun now _ => Knows now) _ (Program.collect sessions (reapSession runtime now)) :=
    obeys_collect Knows first fun session among learnt held =>
      obeys_reapSession Knows held (fun _ _ held session among closed => mem_append_right _ (held session among closed))
        (held session among)
  refine obeys_bind.mpr (loop.weaken ?_)
  rintro _ (_ | _) - <;> trivial

theorem conducted (op : Operation) : Obeys conduct (fun _ _ => True) {} (op.body runtime) := by
  cases op with
  | initializeSession defn protocolVersion principal =>
    refine obeys_bind.mpr ((obeys_initializeSession defn protocolVersion principal).weaken ?_)
    rintro _ (err | _) - <;> trivial
  | close defn sessionId principal => exact obeys_close defn sessionId principal
  | reapExpiredSessions defn limit =>
    refine obeys_bind.mpr ((obeys_reapExpiredSessions defn limit).weaken ?_)
    rintro _ (_ | _) - <;> trivial
  | submit op | turn => exact ⟨trivial, fun _ _ => trivial⟩

open World (Sound answer)

section
variable {learnt : Learnt}

structure World.Knows (world : World) (learnt : Learnt) : Prop where
  created : ∀ revision id, (revision, id) ∈ learnt.created → ∃ session,
    world.sessions.find? id = some session ∧ session.catalogRevision = revision
  closed : ∀ id ∈ learnt.closed, ∃ session, world.sessions.find? id = some session ∧ session.state = .closed

theorem World.Knows.follows (knows : world.Knows learnt) (follows : world.Follows world') : world'.Knows learnt where
  created rev id among := by
    obtain ⟨session, here, same⟩ := knows.created rev id among
    obtain ⟨session', there, revision', -⟩ := follows id session here
    exact ⟨session', there, revision'.trans same⟩
  closed id among := by
    obtain ⟨session, here, state⟩ := knows.closed id among
    obtain ⟨session', there, -, stays⟩ := follows id session here
    exact ⟨session', there, stays state⟩

theorem World.Knows.learn_created (knows : world.Knows learnt) (here : world.sessions.find? session.id = some session) :
    world.Knows { learnt with created := (session.catalogRevision, session.id) :: learnt.created } where
  created rev id among := by
    rcases mem_cons.mp among with same | before
    · cases same
      exact ⟨session, here, rfl⟩
    · exact knows.created rev id before
  closed := knows.closed

theorem World.Knows.learn_closed (ids : List String) (knows : world.Knows learnt)
    (closed : ∀ id ∈ ids, ∃ session, world.sessions.find? id = some session ∧ session.state = .closed) :
    world.Knows { learnt with closed := ids ++ learnt.closed } where
  created := knows.created
  closed id among := by
    rcases mem_append.mp among with fresh | before
    · exact closed id fresh
    · exact knows.closed id before

theorem World.commit_spec {α : Type} (choice : Choice) (world : World) (written : Except Failure (α × World)) :
    (∃ err, world.commit choice written = (.error err, world)) ∨
      ∃ value after, written = .ok (value, after) ∧ choice.takes = true ∧
        (world.commit choice written = (.ok value, after) ∨
          ∃ err, world.commit choice written = (.error err, after)) := by
  unfold World.commit
  split
  · next takes =>
    cases written with
    | error err => exact .inl ⟨err, rfl⟩
    | ok done =>
      refine .inr ⟨done.1, done.2, rfl, takes, ?_⟩
      dsimp only
      split
      · exact .inl rfl
      · exact .inr ⟨_, rfl⟩
  · exact .inl ⟨_, rfl⟩

theorem World.listSessions_ok {sessions : List Session}
    (listed : world.listSessions runtime serverId states limit = .ok sessions) :
    sessions = ((world.sessions.rows.filter fun session =>
      session.serverId = trim serverId && session.state ∈ states).insertionSort
        (earlier runtime · · = true)).take limit.toNat := by
  unfold World.listSessions at listed
  split at listed
  · cases listed
  split at listed
  · cases listed
  · obtain ⟨_, named, listed⟩ := bind_ok listed
    unfold requiredIdentity at named
    split at named
    · cases named
    · cases named
      exact (ok.inj listed).symm

/-- Every answer leaves sessions and references in agreement, given the care, and teaches what is so. -/
theorem answer_sound (trimmed : runtime.stored = runtime.application) (req : Request) (choice : Choice)
    (sound : world.Sound runtime) (knows : world.Knows learnt) (permitted : permits learnt req)
    (careful : world.Careful runtime choice req) : (answer runtime req choice world).2.Sound runtime ∧
      world.Follows (answer runtime req choice world).2 ∧
      (answer runtime req choice world).2.Knows
        (afterwards learnt req (answer runtime req choice world).1) := by
  have same : world.Follows world := .of_same rfl
  cases req with
  | clock | identifier | active | bindTools defn principal catalog | getSession sessionId =>
    exact ⟨sound, same, knows⟩
  | submit =>
    exact ⟨sound.setDesk rfl fun session among opened => (sound.opened session among opened).2, .of_same rfl,
      knows.follows (.of_same rfl)⟩
  | turn => exact ⟨sound.turn careful, .of_same rfl, knows.follows (.of_same rfl)⟩
  | listSessions serverId states limit =>
    refine ⟨sound, same, ?_⟩
    rw [World.answer]
    unfold read
    split
    · cases listed : world.listSessions runtime serverId states limit with
      | error => exact knows
      | ok =>
        refine knows.learn_closed _ fun id among => ?_
        obtain ⟨session, picked, rfl⟩ := mem_map.mp among
        obtain ⟨present, state⟩ := mem_filter.mp picked
        rw [World.listSessions_ok listed] at present
        have stored := mem_of_mem_filter ((mem_insertionSort _).mp (mem_of_mem_take present))
        exact ⟨session, find?_eq_some.mpr ⟨stored, rfl⟩, by simpa using state⟩
    · exact knows
  | createSession session =>
    rw [World.answer]
    rcases World.commit_spec choice world (world.createSession runtime session) with
      ⟨err, is⟩ | ⟨value, after, is, takes, answered⟩
    · rw [is]
      exact ⟨sound, same, knows⟩
    obtain ⟨-, absent, written⟩ := World.createSession_ok is
    obtain ⟨kept, follows, stored⟩ :=
      sound.create trimmed absent permitted (careful takes absent) written
    rcases answered with answered | ⟨err, answered⟩ <;> rw [answered]
    · exact ⟨kept, follows, (knows.follows follows).learn_created stored⟩
    · exact ⟨kept, follows, knows.follows follows⟩
  | replaceSession session expectedVersion =>
    rw [World.answer]
    rcases World.commit_spec choice world (world.replaceSession runtime session expectedVersion) with
      ⟨err, is⟩ | ⟨value, after, is, -, answered⟩
    · rw [is]
      exact ⟨sound, same, knows⟩
    obtain ⟨-, cur, here, kept, written⟩ := World.replaceSession_ok is
    have state : session.state = .closed := permitted
    rw [if_pos state] at written
    have rev : session.catalogRevision = cur.catalogRevision := by
      simp only [Session.immutable, cons.injEq, Prod.mk.injEq] at kept
      exact kept.2.2.2.1.2.symm
    obtain ⟨kept, follows, stored⟩ := sound.close trimmed here rev state written
    rcases answered with answered | ⟨err, answered⟩ <;> rw [answered]
    · refine ⟨kept, follows, World.Knows.learn_closed [session.id] (knows.follows follows) ?_⟩
      intro id among
      obtain rfl := mem_singleton.mp among
      exact ⟨session, stored, state⟩
    · exact ⟨kept, follows, knows.follows follows⟩
  | reference rev sessionId =>
    rw [World.answer]
    rcases World.commit_spec choice world (.ok ((), world.write (.put runtime.application
        (sessionReference rev sessionId)))) with ⟨err, is⟩ | ⟨value, after, is, takes, answered⟩
    · rw [is]
      exact ⟨sound, same, knows⟩
    obtain ⟨-, rfl⟩ := Prod.mk.inj (ok.inj is)
    obtain ⟨session, here, rev⟩ := knows.created _ _ permitted
    have kept := sound.reference here rev (careful takes session here)
    rcases answered with answered | ⟨err, answered⟩ <;> rw [answered] <;>
      exact ⟨kept, .of_same rfl, knows.follows (.of_same rfl)⟩
  | release rev sessionId =>
    rw [World.answer]
    rcases World.commit_spec choice world (.ok ((), world.write (.remove runtime.application rev .session
        sessionId))) with ⟨err, is⟩ | ⟨value, after, is, -, answered⟩
    · rw [is]
      exact ⟨sound, same, knows⟩
    obtain ⟨-, rfl⟩ := Prod.mk.inj (ok.inj is)
    obtain ⟨_, here, state⟩ := knows.closed sessionId permitted
    have kept := sound.release rev here state
    rcases answered with answered | ⟨_, answered⟩ <;> rw [answered] <;>
      exact ⟨kept, .of_same rfl, knows.follows (.of_same rfl)⟩

end

theorem keeps (trimmed : runtime.stored = runtime.application) :
    Crowd.Keeps (server runtime) (Operation.body runtime) conduct
      (Pointwise (Sound runtime) fun world _ learnt => world.Knows learnt) (Careful runtime)
      fun _ => {} := by
  refine Crowd.keeps_pointwise World.Follows conducted ?_ ?_ ?_
  · intro sys caller op _ _
    exact ⟨nofun, nofun⟩
  · intro world world' op learnt knows follows
    exact knows.follows follows
  · intro sys caller choice op learnt req rest running careful sound knows permitted
    obtain ⟨kept, follows, learns⟩ := answer_sound trimmed req choice sound knows permitted
      (careful op req rest running)
    exact ⟨trivial, kept, follows, learns⟩

theorem agrees_of_careful (trimmed : runtime.stored = runtime.application)
    (careful : EachStep (next runtime) (Careful runtime) { world := {} } events) :
    (runFrom (next runtime) { world := {} } events).world.Agrees runtime := by
  have empty : Sound runtime {} :=
    ⟨nofun, fun rev id refers => (nomatch refers)⟩
  have start : Crowd.Kept conduct (Pointwise (Sound runtime) fun world _ learnt => world.Knows learnt)
      ({ world := {} } : System) :=
    kept_empty ⟨empty, fun _ _ _ here => (Option.some_ne_none _ here.symm).elim⟩
  obtain ⟨_, -, sound, -⟩ := (keeps trimmed).run start careful
  exact sound.agrees

end Applik8s.Mcp
