import Applik8s.Mcp.Agreement

/-! Sweeps page over a listing that closed sessions stay in. So what one sweep does not reach, none does: expired
sessions are closed in finitely many sweeps exactly where they are among the first of the listing. -/
namespace Applik8s.Mcp
open Lib Authority List
open Program (check collect exec exec_bind)
variable {runtime : Runtime} {world world' : World} {session row : Session} {definition : Definition}
  {limit now : Int}

section
variable (runtime : Runtime) (definition : Definition) (limit now : Int) (world : World)

def quietly : Interpreter Stores World where
  answer request world := World.answer runtime request ⟨now, "", true, true⟩ world

/-- `reapExpiredSessions`, with no other call in progress. -/
def sweep : World :=
  (Program.exec (quietly runtime now) (reapExpiredSessions runtime definition limit) world).2

def sweeps (times : List Int) : World :=
  times.foldl (fun world now => sweep runtime definition limit now world) world

def World.Reaped : Prop :=
  ∀ session ∈ world.sessions.rows, session.serverId = definition.id → session.expired runtime now →
    session.state = .closed

def World.listed : List Session :=
  ((world.sessions.rows.filter fun session => session.serverId = trim definition.id &&
    session.state ∈ [.active, .draining, .closed]).insertionSort (earlier runtime · · = true)).take limit.toNat

def World.Within : Prop :=
  ∀ session ∈ world.sessions.rows, session.serverId = definition.id → session.expired runtime now →
    session.state ≠ .closed → session ∈ world.listed runtime definition limit

instance : Decidable (world.Within runtime definition limit now) :=
  inferInstanceAs (Decidable (∀ session ∈ world.sessions.rows, session.serverId = definition.id →
    session.expired runtime now → session.state ≠ .closed → session ∈ world.listed runtime definition limit))

def World.Valid : Prop := ∀ session ∈ world.sessions.rows, assertSession runtime session = .ok ()

end

theorem World.Valid.put (valid : world.Valid runtime) (checked : assertSession runtime session = .ok ())
    (written : world'.sessions = world.sessions.put session) : world'.Valid runtime := by
  intro other among
  rw [written] at among
  rcases Table.mem_put.mp among with rfl | ⟨before, -⟩
  · exact checked
  · exact valid other before

open World (answer commit_spec)

theorem answer_valid (req : Request) (choice : Choice) (valid : world.Valid runtime) :
    (answer runtime req choice world).2.Valid runtime := by
  cases req with
  | createSession session =>
    rw [World.answer]
    rcases commit_spec choice world (world.createSession runtime session) with
      ⟨err, is⟩ | ⟨value, after, is, -, answered⟩
    · rw [is]
      exact valid
    obtain ⟨checked, -, written⟩ := World.createSession_ok is
    have sessions : after.sessions = world.sessions.put session := by
      rw [written, World.putCatalogReference_sessions]
    rcases answered with answered | ⟨err, answered⟩ <;> rw [answered] <;>
      exact valid.put checked sessions
  | replaceSession session expectedVersion =>
    rw [World.answer]
    rcases commit_spec choice world (world.replaceSession runtime session expectedVersion) with
      ⟨err, is⟩ | ⟨value, after, is, -, answered⟩
    · rw [is]
      exact valid
    obtain ⟨checked, _, -, -, written⟩ := World.replaceSession_ok is
    have sessions : after.sessions = world.sessions.put session := by
      rw [written]
      split
      · rfl
      · exact World.putCatalogReference_sessions
    rcases answered with answered | ⟨err, answered⟩ <;> rw [answered] <;>
      exact valid.put checked sessions
  | reference rev sessionId | release rev sessionId =>
    rw [World.answer]
    rcases commit_spec choice world (.ok ((), _)) with ⟨err, is⟩ | ⟨_, _, is, -, answered⟩
    · rw [is]
      exact valid
    · obtain ⟨-, rfl⟩ := Prod.mk.inj (Except.ok.inj is)
      rcases answered with answered | ⟨_, answered⟩ <;> rw [answered] <;> exact valid
  | clock | identifier | active | bindTools definition principal catalog | getSession sessionId
  | listSessions serverId states limit | submit op | turn => exact valid

theorem valid_run (events : List Event) : (runFrom (next runtime) { world := {} } events).world.Valid runtime := by
  have each : EachStep (next runtime) (fun _ _ => True) { world := {} } events :=
    eachStep_of_always fun _ _ _ => trivial
  refine invariant_of_steps (fun sys => sys.world.Valid runtime) ?_ (fun _ among => nomatch among) each
  intro sys event valid _
  exact Crowd.advance_world (fun (_ after : World) => after.Valid runtime) valid
    fun _ choice _ req _ _ _ => answer_valid req choice valid

def reaped (runtime : Runtime) (now : Int) (session : Session) : Session :=
  if session.state ≠ .closed && session.expired runtime now then closed session else session

@[simp] theorem reaped_id : (reaped runtime now session).id = session.id := by
  unfold reaped
  split <;> rfl

@[simp] theorem reaped_serverId : (reaped runtime now session).serverId = session.serverId := by
  unfold reaped
  split <;> rfl

@[simp] theorem reaped_expiresAt : (reaped runtime now session).expiresAt = session.expiresAt := by
  unfold reaped
  split <;> rfl

theorem reaped_closed (state : session.state = .closed) : reaped runtime now session = session := by
  simp [reaped, state]

theorem assertSession_closed (valid : assertSession runtime session = .ok ()) :
    1 ≤ session.version ∧ assertSession runtime (closed session) = .ok () := by
  obtain ⟨_, id, valid⟩ := bind_ok valid
  obtain ⟨_, serverId, valid⟩ := bind_ok valid
  obtain ⟨_, serverRevision, valid⟩ := bind_ok valid
  obtain ⟨_, catRev, valid⟩ := bind_ok valid
  obtain ⟨_, principalId, valid⟩ := bind_ok valid
  obtain ⟨_, principalIdentityId, valid⟩ := bind_ok valid
  obtain ⟨_, audience, valid⟩ := bind_ok valid
  obtain ⟨_, authRev, valid⟩ := bind_ok valid
  split at valid
  · cases valid
  next sound =>
  simp only [Bool.or_eq_true, decide_eq_true_eq, not_or] at sound
  obtain ⟨⟨protocol, version⟩, dates⟩ := sound
  refine ⟨by omega, ?_⟩
  refine bind_of_ok id (bind_of_ok serverId (bind_of_ok serverRevision (bind_of_ok catRev ?_)))
  refine bind_of_ok principalId (bind_of_ok principalIdentityId (bind_of_ok audience ?_))
  refine bind_of_ok authRev (if_neg ?_)
  simp only [Bool.or_eq_true, decide_eq_true_eq, not_or]
  exact ⟨⟨protocol, Nat.not_lt.mpr (Nat.le_add_left 1 session.version)⟩, dates⟩

theorem reaped_valid (valid : assertSession runtime session = .ok ()) :
    assertSession runtime (reaped runtime now session) = .ok () := by
  unfold reaped
  split
  · exact (assertSession_closed valid).2
  · exact valid

theorem World.replaceSession_closed (valid : assertSession runtime session = .ok ())
    (among : session ∈ world.sessions.rows) :
    world.replaceSession runtime (closed session) session.version = .ok (closed session,
      World.removeCatalogReference runtime session.catalogRevision session.id
        { world with sessions := world.sessions.put (closed session) }) := by
  obtain ⟨_, checked⟩ := assertSession_closed valid
  have found : (world.sessions.find? (closed session).id).filter (·.version = session.version) = some session :=
    Option.filter_eq_some_iff.mpr ⟨Table.find?_eq_some.mpr ⟨among, rfl⟩, by simp⟩
  have follows : assertNextVersion (closed session) session.version = .ok () := by
    refine if_neg ?_
    have nonzero : session.version ≠ 0 := by omega
    simp [closed, nonzero]
  have kept : assertImmutableSessionIdentity session (closed session) = .ok () := by
    simp [assertImmutableSessionIdentity, Session.immutable, closed]
  refine bind_of_ok checked (bind_of_ok follows ?_)
  rw [found]
  exact bind_of_ok kept rfl

theorem exec_releaseSession (runtime : Runtime) (now : Int) (session : Session) (world : World) :
    ∃ released after, exec (quietly runtime now) (releaseSession session) world =
      (.ok released, after) ∧ after.sessions = world.sessions :=
  ⟨some session.id, _, rfl, rfl⟩

theorem exec_reapSession (valid : assertSession runtime session = .ok ())
    (among : session ∈ world.sessions.rows) : ∃ released after,
      exec (quietly runtime now) (reapSession runtime now session) world = (.ok released, after) ∧
        after.sessions.rows = world.sessions.rows.map fun row =>
          if row = session then reaped runtime now row else row := by
  have still : ∀ rows : List Session, reaped runtime now session = session →
      rows = rows.map fun row => if row = session then reaped runtime now row else row := by
    intro rows same
    refine (map_id'' (fun row => ?_) rows).symm
    split
    · next own => rw [own, same]
    · rfl
  unfold reapSession
  split
  · next spared => exact ⟨none, world, rfl, still _ (by simp_all [reaped])⟩
  next due =>
  split
  · next opened =>
    have expired : session.expired runtime now = true := by
      by_contra lasts
      exact due (by simp [opened, lasts])
    have written := World.replaceSession_closed valid among
    have answered : answer runtime (.replaceSession (closed session) session.version)
        ⟨now, "", true, true⟩ world = (.ok (closed session),
          World.removeCatalogReference runtime session.catalogRevision session.id
            { world with sessions := world.sessions.put (closed session) }) := by
      rw [World.answer, written]
      rfl
    obtain ⟨released, after, ran, sessions⟩ := exec_releaseSession runtime now session
      (World.removeCatalogReference runtime session.catalogRevision session.id
        { world with sessions := world.sessions.put (closed session) })
    refine ⟨released, after, Eq.trans ?_ ran, ?_⟩
    · rw [exec_bind, show exec (quietly runtime now) (ask _) world = (Except.ok (Except.ok (closed session)), _) from
        congrArg (fun out => (Except.ok out.1, out.2)) answered]
    have present : Keyed.key (closed session) ∈ world.sessions.rows.map Keyed.key :=
      mem_map.mpr ⟨session, among, rfl⟩
    rw [sessions]
    refine (Table.put_rows present).trans (map_congr_left fun row listed => ?_)
    by_cases own : row = session
    · subst own
      simp [reaped, opened, expired, closed, Keyed.key]
    have apart : Keyed.key row ≠ Keyed.key (closed session) :=
      fun same => own (Table.eq_of_key_eq listed among same)
    rw [if_neg apart, if_neg own]
  · next state =>
    obtain ⟨released, after, ran, sessions⟩ := exec_releaseSession runtime now session world
    refine ⟨released, after, ran, ?_⟩
    rw [sessions]
    exact still _ (reaped_closed (by simpa using state))

theorem exec_collect_reapSession (sessions : List Session) (world : World)
    (valid : ∀ session ∈ sessions, assertSession runtime session = .ok ())
    (among : ∀ session ∈ sessions, session ∈ world.sessions.rows) (distinct : (sessions.map Session.id).Nodup) :
    ∃ released after, exec (quietly runtime now) (collect sessions (reapSession runtime now)) world =
        (.ok released, after) ∧ after.sessions.rows = world.sessions.rows.map fun row =>
          if row ∈ sessions then reaped runtime now row else row := by
  induction sessions generalizing world with
  | nil => exact ⟨[], world, rfl, by simp⟩
  | cons first rest ih =>
    obtain ⟨fresh, tail⟩ := nodup_cons.mp distinct
    obtain ⟨released, middle, ran, rows⟩ :=
      exec_reapSession (valid first mem_cons_self) (among first mem_cons_self)
    have apart : ∀ row, row.id = first.id → row ∉ rest := fun row same listed =>
      fresh (same ▸ mem_map_of_mem listed)
    have later : ∀ session ∈ rest, session ∈ middle.sessions.rows := by
      intro session listed
      rw [rows]
      refine mem_map.mpr ⟨session, among session (mem_cons_of_mem _ listed), if_neg ?_⟩
      rintro rfl
      exact apart session rfl listed
    obtain ⟨others, after, ran', rows'⟩ := ih middle
      (fun session listed => valid session (mem_cons_of_mem _ listed)) later tail
    refine ⟨released :: others, after, ?_, ?_⟩
    · rw [Program.exec_collect_cons, exec_bind, ran]
      change exec _ (collect rest _ >>= _) middle = _
      rw [exec_bind, ran']
      rfl
    rw [rows', rows, map_map]
    refine map_congr_left fun row _ => ?_
    by_cases own : row = first
    · subst own
      simp [apart _ reaped_id]
    · simp [own]

theorem World.mem_listed (listed : session ∈ world.listed runtime definition limit) :
    session ∈ world.sessions.rows ∧ session.serverId = trim definition.id := by
  obtain ⟨among, picked⟩ := mem_filter.mp ((mem_insertionSort _).mp (mem_of_mem_take listed))
  simp only [Bool.and_eq_true, decide_eq_true_eq] at picked
  exact ⟨among, picked.1⟩

theorem World.listed_distinct : ((world.listed runtime definition limit).map Session.id).Nodup := by
  refine ((take_sublist _ _).map _).nodup ?_
  refine ((perm_insertionSort _ _).map Session.id).nodup_iff.mpr ?_
  exact world.sessions.distinct.sublist (filter_sublist.map _)

theorem World.Valid.named (valid : world.Valid runtime) (among : session ∈ world.sessions.rows) :
    ∃ name, requiredIdentity session.serverId "server id" = .ok name := by
  have checked := valid session among
  obtain ⟨_, -, checked⟩ := bind_ok checked
  obtain ⟨name, named, -⟩ := bind_ok checked
  exact ⟨name, named⟩

theorem sweep_rows (definition : Definition) (now : Int) (valid : world.Valid runtime) (bounded : 1 ≤ limit ∧ limit ≤ 10000) :
    (sweep runtime definition limit now world).sessions.rows = world.sessions.rows.map fun row =>
      if row ∈ world.listed runtime definition limit then reaped runtime now row else row := by
  have checked : reapLimit limit = .ok () := if_neg (by simp; omega)
  have within : ¬((limit < 1 || 10000 < limit) = true) := by simp; omega
  have ran : sweep runtime definition limit now world = (exec (quietly runtime now)
      (check (world.listSessions runtime definition.id [.active, .draining, .closed] limit) >>=
        fun sessions => collect sessions (reapSession runtime now) >>= fun released =>
          pure (released.filterMap id)) world).2 := by
    unfold sweep reapExpiredSessions
    rw [checked]
    rfl
  rw [ran]
  cases named : requiredIdentity definition.id "server id" with
  | error err =>
    have refused : world.listSessions runtime definition.id [.active, .draining, .closed] limit = .error err := by
      unfold World.listSessions
      rw [if_neg within, if_neg (by simp), named]
      rfl
    rw [refused]
    refine (map_id'' (fun row => ?_) _).symm
    rw [if_neg]
    intro listed
    obtain ⟨among, server⟩ := World.mem_listed listed
    have nameless : trim definition.id = "" := by
      unfold requiredIdentity at named
      split at named
      · assumption
      · cases named
    obtain ⟨name, named'⟩ := valid.named among
    rw [server, nameless] at named'
    cases named'
  | ok name =>
    have answered : world.listSessions runtime definition.id [.active, .draining, .closed] limit =
        .ok (world.listed runtime definition limit) := by
      unfold World.listSessions
      rw [if_neg within, if_neg (by simp), named]
      unfold requiredIdentity at named
      split at named
      · cases named
      · cases named
        rfl
    obtain ⟨_, _, ran, rows⟩ := exec_collect_reapSession (world.listed runtime definition limit) world
      (fun session listed => valid session (World.mem_listed listed).1) (fun _ listed => (World.mem_listed listed).1)
      World.listed_distinct
    rw [answered]
    change (exec _ (collect _ _ >>= _) world).2.sessions.rows = _
    rw [exec_bind, ran]
    exact rows

/-- Some sweeps on: the rows stand where they stood, and only those change that a sweep listed at first. -/
structure Swept (runtime : Runtime) (definition : Definition) (limit : Int) (before after : World)
    (change : Session → Session) : Prop where
  rows : after.sessions.rows = before.sessions.rows.map change
  valid : after.Valid runtime
  id : ∀ row, (change row).id = row.id
  serverId : ∀ row, (change row).serverId = row.serverId
  expiresAt : ∀ row, (change row).expiresAt = row.expiresAt
  spared : ∀ row ∈ before.sessions.rows, row ∉ before.listed runtime definition limit → change row = row

theorem Swept.listed (swept : Swept runtime definition limit world world' change) :
    world'.listed runtime definition limit = (world.listed runtime definition limit).map change := by
  have order : ∀ first second, earlier runtime (change first) (change second) = earlier runtime first second := by
    intro first second
    simp [earlier, swept.id, swept.expiresAt]
  have states : ∀ row : Session, decide (row.state ∈ [SessionState.active, .draining, .closed]) = true := by
    intro row
    cases row.state <;> rfl
  unfold World.listed
  rw [swept.rows, filter_map, map_take,
    map_insertionSort _ (earlier runtime · · = true) change _ fun first _ second _ => by rw [order]]
  simp only [Function.comp_def, swept.serverId, states]

theorem Swept.refl (valid : world.Valid runtime) : Swept runtime definition limit world world fun row => row where
  rows := (map_id' _).symm
  valid := valid
  id _ := rfl
  serverId _ := rfl
  expiresAt _ := rfl
  spared _ _ _ := rfl

theorem Swept.sweep (now : Int) (swept : Swept runtime definition limit world world' change)
    (bounded : 1 ≤ limit ∧ limit ≤ 10000) : ∃ change', Swept runtime definition limit world
      (Mcp.sweep runtime definition limit now world') change' := by
  have rows := sweep_rows definition now swept.valid bounded
  refine ⟨fun row => if change row ∈ world'.listed runtime definition limit then reaped runtime now (change row)
    else change row, ?_, ?_, ?_, ?_, ?_, ?_⟩
  · rw [rows, swept.rows, map_map]
    rfl
  · intro session among
    rw [rows] at among
    obtain ⟨row, stored, rfl⟩ := mem_map.mp among
    split
    · exact reaped_valid (swept.valid row stored)
    · exact swept.valid row stored
  · intro row
    split
    · rw [reaped_id, swept.id]
    · exact swept.id row
  · intro row
    split
    · rw [reaped_serverId, swept.serverId]
    · exact swept.serverId row
  · intro row
    split
    · rw [reaped_expiresAt, swept.expiresAt]
    · exact swept.expiresAt row
  · intro row among unlisted
    have same := swept.spared row among unlisted
    rw [same, if_neg]
    intro listed
    rw [swept.listed] at listed
    obtain ⟨other, first, changed⟩ := mem_map.mp listed
    have own : other = row :=
      Table.eq_of_key_eq (World.mem_listed first).1 among ((swept.id other).symm.trans (congrArg Session.id changed))
    exact unlisted (own ▸ first)

theorem Swept.sweeps (bounded : 1 ≤ limit ∧ limit ≤ 10000) (times : List Int)
    (swept : Swept runtime definition limit world world' change) : ∃ change',
      Swept runtime definition limit world (Mcp.sweeps runtime definition limit world' times) change' := by
  induction times generalizing world' change with
  | nil => exact ⟨change, swept⟩
  | cons now rest ih =>
    obtain ⟨_, later⟩ := swept.sweep now bounded
    exact ih later

theorem sweeps_reap_iff (valid : world.Valid runtime) (bounded : 1 ≤ limit ∧ limit ≤ 10000) :
    (∃ times, (∀ time ∈ times, now ≤ time) ∧
      (sweeps runtime definition limit world times).Reaped runtime definition now) ↔
      world.Within runtime definition limit now := by
  constructor
  · rintro ⟨times, -, done⟩ session among server expired opened
    by_contra unlisted
    obtain ⟨change, swept⟩ := (Swept.refl valid).sweeps bounded times
    have same := swept.spared session among unlisted
    refine opened (done session ?_ server expired)
    rw [swept.rows]
    exact mem_map.mpr ⟨session, among, same⟩
  intro within
  refine ⟨[now], fun time among => (mem_singleton.mp among).ge, fun session among server expired => ?_⟩
  change session ∈ (sweep runtime definition limit now world).sessions.rows at among
  rw [sweep_rows definition now valid bounded] at among
  obtain ⟨row, stored, rfl⟩ := mem_map.mp among
  by_cases state : row.state = .closed
  · split
    · rwa [reaped_closed state]
    · exact state
  have own : row.serverId = definition.id := by
    rw [← server]
    split <;> simp
  have expiry : (if row ∈ world.listed runtime definition limit then reaped runtime now row else row).expiresAt =
      row.expiresAt := by
    split <;> simp
  have due : row.expired runtime now = true := by
    unfold Session.expired at expired ⊢
    rwa [expiry] at expired
  rw [if_pos (within row stored own due state)]
  simp [reaped, state, due, closed]

/-- In careful runs sessions and references agree; and wherever a run leads, finitely many sweeps close what has
expired exactly where it is among the first of the listing. -/
theorem sessions_agree_and_expire (runtime : Runtime) : (runtime.stored = runtime.application → ∀ events,
      EachStep (next runtime) (Careful runtime) { world := {} } events →
        (runFrom (next runtime) { world := {} } events).world.Agrees runtime) ∧
    ∀ events definition limit now, 1 ≤ limit ∧ limit ≤ 10000 → ((∃ times, (∀ time ∈ times, now ≤ time) ∧
        (sweeps runtime definition limit (runFrom (next runtime) { world := {} } events).world
          times).Reaped runtime definition now) ↔
        (runFrom (next runtime) { world := {} } events).world.Within runtime definition limit now) :=
  ⟨fun trimmed _ => agrees_of_careful trimmed, fun events _ _ _ bounded => sweeps_reap_iff (valid_run events) bounded⟩

private def plainRuntime : Runtime := ⟨utcDates, stringLess, "shop"⟩
private def research : Definition := ⟨"research", "Research", "server-1", "https://mcp.example.test", 3600000⟩
private def ada : Principal := ⟨"ada", "ada@acme", ["https://mcp.example.test"], "authority-1", none⟩

private def plainCatalog (revision : String) (predecessor : Option String) : CatalogRecord where
  application := "shop"
  revision := revision
  state := .proposed
  operations := []
  digest := revision
  predecessor := predecessor

private def plainChoice (now : Int) (identifier : String) : Choice := ⟨now, identifier, true, true⟩

private def steps (caller count : Nat) (now : Int) (identifier : String) : List Event :=
  List.replicate count (.step caller (plainChoice now identifier))

private def manage (operation : CatalogOperation) : List Event :=
  [.start 9 (.submit operation)] ++ steps 9 2 0 "" ++
    (List.replicate 7 (CrowdEvent.start 9 .turn :: steps 9 2 0 "")).flatten

private def prepared : List Event :=
  manage (.stage "now" (plainCatalog "r1" none)) ++ manage (.activate "now" "shop" "r1")

private def initialization : Operation := .initializeSession research applicationMcpProtocolRevision ada

private def late : List Event :=
  prepared ++ [.start 0 initialization] ++ steps 0 5 0 "a" ++
    [.start 1 (.reapExpiredSessions research 100)] ++ steps 1 4 3600000 "" ++ steps 0 1 0 ""

private def stale : List Event :=
  prepared ++ [.start 0 initialization] ++ steps 0 1 0 "a" ++
    manage (.stage "now" (plainCatalog "r2" (some "r1"))) ++ manage (.activate "now" "shop" "r2") ++
    manage (.retire "now" "shop" "r1") ++ steps 0 4 0 "a"

private def lingering : List Event :=
  prepared ++ [.start 0 initialization] ++ steps 0 7 0 "a" ++
    [.start 1 (.reapExpiredSessions research 100)] ++ steps 1 5 3600000 "" ++
    [.start 0 initialization] ++ steps 0 7 7200000 "b"

private def tidy : List Event :=
  prepared ++ [.start 0 initialization] ++ steps 0 7 0 "a" ++
    [.start 1 (.close research "mcp_session_a" ada)] ++ steps 1 5 1000 "" ++
    [.start 0 initialization] ++ steps 0 7 1000 "b" ++
    [.start 1 (.reapExpiredSessions research 100)] ++ steps 1 6 3601000 ""

/-- A closed session has a reference; an open session has a retired revision; and an expired session stays open
however often one session is swept. -/
theorem sessions_disagree_and_linger : ¬ (runFrom (next plainRuntime) { world := {} } late).world.Agrees plainRuntime ∧
    ¬ (runFrom (next plainRuntime) { world := {} } stale).world.Agrees plainRuntime ∧
    ¬ ∃ times, (∀ time ∈ times, 14400000 ≤ time) ∧
      (sweeps plainRuntime research 1 (runFrom (next plainRuntime) { world := {} } lingering).world
        times).Reaped plainRuntime research 14400000 := by
  refine ⟨fun agrees => ?_, fun agrees => ?_, fun reaped => ?_⟩
  · have referred : ∃ session ∈ (runFrom (next plainRuntime) { world := {} } late).world.sessions.rows,
        session.state = .closed ∧
          ∃ reference ∈ ((runFrom (next plainRuntime) { world := {} } late).world.catalogs.references "shop").rows,
            Keyed.key reference = ("r1", ReferenceKind.session, session.id) := by
      decide +kernel
    obtain ⟨session, among, state, refers⟩ := referred
    exact agrees.closed session among state "r1" refers
  · have retired : ∃ session ∈ (runFrom (next plainRuntime) { world := {} } stale).world.sessions.rows,
        session.state = .active ∧ ¬ World.Stands plainRuntime
          (runFrom (next plainRuntime) { world := {} } stale).world session.catalogRevision := by
      decide +kernel
    obtain ⟨session, among, state, falls⟩ := retired
    exact falls (agrees.active session among state).2
  · have within := (sweeps_reap_iff (valid_run lingering) (by decide)).mp reaped
    revert within
    decide +kernel

theorem sessions_agree_and_expire_tidy :
    (runFrom (next plainRuntime) { world := {} } tidy).world.sessions.rows.map Session.state = [.closed, .closed] ∧
    (runFrom (next plainRuntime) { world := {} } tidy).world.Agrees plainRuntime ∧
    ∃ times, (∀ time ∈ times, 14400000 ≤ time) ∧
      (sweeps plainRuntime research 2 (runFrom (next plainRuntime) { world := {} } lingering).world
        times).Reaped plainRuntime research 14400000 :=
  ⟨by decide +kernel, (sessions_agree_and_expire plainRuntime).1 (by decide +kernel) tidy (by decide +kernel),
    ((sessions_agree_and_expire plainRuntime).2 lingering research 2 14400000 (by decide)).mpr (by decide +kernel)⟩

end Applik8s.Mcp
