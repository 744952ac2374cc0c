import Applik8s.Lib.Crowd
import Applik8s.Authority.CatalogManager

/-! The sessions of an MCP server and the catalog references that pin their revisions: `initialize`, `close` and
`reapExpiredSessions` of `server.ts` on the stores of `postgres.ts`, beside the catalog manager. -/
namespace Applik8s.Mcp
open Lib Authority

inductive SessionState where
  | active | draining | closed
  deriving DecidableEq

/-- `ApplicationMcpSession`; its tools are not read. -/
structure Session where
  id : String
  serverId : String
  serverRevision : String
  protocolRevision : String
  catalogRevision : String
  principalId : String
  principalIdentityId : String
  audience : String
  authorityRevisionAtInitialization : String
  issuedAt : String
  expiresAt : String
  state : SessionState
  version : Nat
  deriving DecidableEq

instance : Keyed Session String := ⟨Session.id⟩

/-- `ApplicationMcpServerDefinition`, as far as it is read. -/
structure Definition where
  id : String
  name : String
  revision : String
  audience : String
  sessionLifetimeMs : Int

/-- `admission.principal`. -/
structure Principal where
  id : String
  identityId : String
  audience : List String
  authorityRevision : String
  expiresAt : Option String

structure InitializeResult where
  protocolVersion : String
  serverName : String
  serverVersion : String
  sessionId : String
  catalogRevision : String

inductive Failure where
  | mcp (code message : String) (status : Nat)
  | other (message : String)

/-- The platform, the order of the database's texts, and the application that both constructors are given. -/
structure Runtime where
  dates : Dates
  collation : String → String → Bool
  application : String

def applicationMcpProtocolRevision : String := "2025-11-25"

section
variable (runtime : Runtime)

/-- `value.trim()`. -/
def trim (value : String) : String :=
  String.ofList ((value.toList.dropWhile isTrimmed).reverse.dropWhile isTrimmed).reverse

def requiredIdentity (value label : String) : Except Failure String :=
  if trim value = "" then .error (.other s!"MCP {label} must not be empty.") else .ok (trim value)

def Runtime.stored : String := trim runtime.application

def assertAdmissionAudience (principal : Principal) (audience : String) : Except Failure Unit :=
  if principal.id = "" || principal.identityId = "" || audience ∉ principal.audience then
    .error (.mcp "MCP_AUTHENTICATION_REQUIRED" s!"MCP credential is not admitted for resource {audience}." 401)
  else .ok ()

variable (session : Session)

def assertSessionPrincipal (principal : Principal) (now : Int) : Except Failure Unit := do
  assertAdmissionAudience principal session.audience
  if session.principalId ≠ principal.id || session.principalIdentityId ≠ principal.identityId then
    .error (.mcp "MCP_SESSION_IDENTITY_MISMATCH" "MCP sessions cannot be transferred between admitted principals." 403)
  else if session.state ≠ .active || isExpired runtime.dates (some session.expiresAt) now ||
      isExpired runtime.dates principal.expiresAt now then
    .error (.mcp "MCP_SESSION_UNAVAILABLE" s!"MCP session {session.id} is expired or closed." 401)
  else .ok ()

def lasts : Bool :=
  match runtime.dates.parse session.issuedAt, runtime.dates.parse session.expiresAt with
  | some issued, some expires => issued < expires
  | _, _ => false

def assertSession : Except Failure Unit := do
  let _ ← requiredIdentity session.id "session id"
  let _ ← requiredIdentity session.serverId "server id"
  let _ ← requiredIdentity session.serverRevision "server revision"
  let _ ← requiredIdentity session.catalogRevision "catalog revision"
  let _ ← requiredIdentity session.principalId "principal id"
  let _ ← requiredIdentity session.principalIdentityId "principal identity id"
  let _ ← requiredIdentity session.audience "audience"
  let _ ← requiredIdentity session.authorityRevisionAtInitialization "authority revision"
  if session.protocolRevision ≠ "2025-11-25" || session.version < 1 || !lasts runtime session then
    .error (.other s!"MCP session {session.id} is invalid.")
  else .ok ()

def assertNextVersion (expectedVersion : Nat) : Except Failure Unit :=
  if expectedVersion < 1 || session.version ≠ expectedVersion + 1 then
    .error (.other <| s!"MCP session {session.id} replacement must advance version {expectedVersion} by " ++
      "exactly one.")
  else .ok ()

/-- The immutable fields of a session, under their names. -/
def Session.immutable : List (String × String) :=
  [("serverId", session.serverId), ("serverRevision", session.serverRevision),
    ("protocolRevision", session.protocolRevision), ("catalogRevision", session.catalogRevision),
    ("principalId", session.principalId), ("principalIdentityId", session.principalIdentityId),
    ("audience", session.audience), ("issuedAt", session.issuedAt)]

def assertImmutableSessionIdentity (current replacement : Session) : Except Failure Unit :=
  match (current.immutable.zip replacement.immutable).find? fun fields => fields.1.2 ≠ fields.2.2 with
  | some fields => .error (.other s!"MCP session {current.id} cannot change immutable {fields.1.1}.")
  | none => .ok ()

def concurrencyError (id : String) (expectedVersion : Nat) : Failure :=
  .other <| s!"MCP session {id} changed concurrently or is unavailable; expected version " ++ s!"{expectedVersion}."

def activeCatalog (application : String) (catalogs : List CatalogRecord) : Except Failure CatalogRecord :=
  match catalogs.filter (·.state = .active) with
  | [catalog] => .ok catalog
  | active => .error (.other <| s!"Application {application} requires exactly one active operation catalog; " ++
      s!"found {active.length}.")

end

section
/-- What the runtime asks of its stores and its surroundings. `bindTools` is what becomes of the operations of
the catalog and their visibility. A caller also turns the catalog manager's desk. -/
inductive Request where
  | clock
  | identifier
  | active
  | bindTools (definition : Definition) (principal : Principal) (catalog : CatalogRecord)
  | createSession (session : Session)
  | getSession (sessionId : String)
  | replaceSession (session : Session) (expectedVersion : Nat)
  | listSessions (serverId : String) (states : List SessionState) (limit : Int)
  | reference (revision sessionId : String)
  | release (revision sessionId : String)
  | submit (operation : CatalogOperation)
  | turn

@[reducible] def Request.Reply : Request → Type
  | .clock => Int
  | .identifier => String
  | .active => Except Failure CatalogRecord
  | .bindTools _ _ _ | .reference _ _ | .release _ _ => Except Failure Unit
  | .createSession _ | .replaceSession _ _ => Except Failure Session
  | .getSession _ => Except Failure (Option Session)
  | .listSessions _ _ _ => Except Failure (List Session)
  | .submit _ | .turn => Unit

def Stores : Interface where
  Call := Request
  Reply := Request.Reply

abbrev McpProgram (α : Type) := Program Stores Failure α

def ask (request : Request) : McpProgram request.Reply := .call request .done

def await {α : Type} (outcome : McpProgram (Except Failure α)) : McpProgram α := do
  Program.check (← outcome)

variable (runtime : Runtime)
  (definition : Definition) (sessionId : String) (protocolVersion : String) (principal : Principal) (now : Int)
  (session : Session)

def supported : Except Failure Unit :=
  if protocolVersion ≠ applicationMcpProtocolRevision then
    .error (.mcp "MCP_PROTOCOL_UNSUPPORTED" (s!"MCP protocol {protocolVersion} is unsupported; " ++
      s!"initialize with {applicationMcpProtocolRevision}.") 400)
  else .ok ()

def newSession (catalogRevision identifier : String)
    (now : Int) : Session where
  id := "mcp_session_" ++ identifier
  serverId := definition.id
  serverRevision := definition.revision
  protocolRevision := applicationMcpProtocolRevision
  catalogRevision
  principalId := principal.id
  principalIdentityId := principal.identityId
  audience := definition.audience
  authorityRevisionAtInitialization := principal.authorityRevision
  issuedAt := runtime.dates.toISOString now
  expiresAt := runtime.dates.toISOString (now + definition.sessionLifetimeMs)
  state := .active
  version := 1

/-- `{ ...session, state: 'closed', version: session.version + 1 }`. -/
def closed : Session :=
  { session with state := .closed, version := session.version + 1 }

/-- `initialize`. -/
def initializeSession :
    McpProgram InitializeResult := do
  Program.check (supported protocolVersion)
  Program.check (assertAdmissionAudience principal definition.audience)
  let catalog ← await (ask .active)
  await (ask (.bindTools definition principal catalog))
  let now ← ask .clock
  let identifier ← ask .identifier
  let session := newSession runtime definition principal catalog.revision identifier now
  let _ ← await (ask (.createSession session))
  match ← ask (.reference catalog.revision session.id) with
  | .ok _ => return {
      protocolVersion := applicationMcpProtocolRevision
      serverName := definition.name
      serverVersion := definition.revision
      sessionId := session.id
      catalogRevision := session.catalogRevision }
  | .error failure =>
    match ← await (ask (.getSession session.id)) with
    | some created =>
      let _ ← await (ask (.replaceSession (closed created) created.version))
      .throw failure
    | none => .throw failure

def sessionRequired : Except Failure Unit :=
  if blank sessionId then
    .error (.mcp "MCP_SESSION_REQUIRED" "A stateful MCP session ID is required." 400)
  else .ok ()

def sessionAvailable (read : Option Session) :
    Except Failure Session :=
  match read.filter (·.serverId = definition.id) with
  | some session => .ok session
  | none => .error (.mcp "MCP_SESSION_UNAVAILABLE" s!"MCP session {sessionId} is unavailable." 404)

def close : McpProgram Unit := do
  Program.check (sessionRequired sessionId)
  let read ← await (ask (.getSession sessionId))
  let session ← Program.check (sessionAvailable definition sessionId read)
  let now ← ask .clock
  Program.check (assertSessionPrincipal runtime session principal now)
  if session.state ≠ .closed then
    let _ ← await (ask (.replaceSession (closed session) session.version))
  await (ask (.release session.catalogRevision session.id))

/-- The session that has been reaped, where its reference could be released. -/
def releaseSession : McpProgram (Option String) := do
  match ← ask (.release session.catalogRevision session.id) with
  | .ok _ => return some session.id
  | .error _ => return none

/-- Not `Date.parse(session.expiresAt) > now`. -/
def Session.expired : Bool :=
  match runtime.dates.parse session.expiresAt with
  | some expiresAt => expiresAt ≤ now
  | none => true

def reapSession : McpProgram (Option String) :=
  if session.state ≠ .closed && !session.expired runtime now then return none
  else if session.state ≠ .closed then do
    match ← ask (.replaceSession (closed session) session.version) with
    | .ok _ => releaseSession session
    | .error _ => return none
  else releaseSession session

def reapLimit (limit : Int) : Except Failure Unit :=
  if limit < 1 || 10000 < limit then
    .error (.other "MCP expired-session reap limit must be between 1 and 10000.")
  else .ok ()

def reapExpiredSessions (limit : Int) : McpProgram (List String) := do
  Program.check (reapLimit limit)
  let now ← ask .clock
  let sessions ← await (ask (.listSessions definition.id [.active, .draining, .closed] limit))
  let released ← Program.collect sessions (reapSession runtime now)
  return released.filterMap id

end

section
/-- The tables of the sessions and of the catalogs, with the catalog manager's desk. -/
structure World where
  sessions : Table Session := .empty
  desk : CatalogDesk := CatalogDesk.fresh

/-- How a call is answered: the time, an identifier, whether it takes effect, and whether its answer comes. -/
structure Choice where
  now : Int
  identifier : String
  takes : Bool
  answers : Bool

variable (runtime : Runtime)

def lost : Failure := .other "connection lost"

variable (revision sessionId : String) (session : Session) (world : World)

def World.catalogs : CatalogStore := world.desk.world

def World.write (write : ReferenceWrite) (world : World) : World :=
  { world with desk := { world.desk with world := world.catalogs.write write } }

def sessionReference : CatalogReference := ⟨revision, .session, sessionId, []⟩

/-- `putCatalogReference` of the session transactions: `ON CONFLICT DO NOTHING`. -/
def World.putCatalogReference : World :=
  match (world.catalogs.references runtime.stored).find? (revision, .session, sessionId) with
  | some _ => world
  | none => world.write (.put runtime.stored (sessionReference revision sessionId))

/-- `removeCatalogReference` of the session transactions. -/
def World.removeCatalogReference : World :=
  world.write (.remove runtime.stored revision .session sessionId)

/-- `create`. -/
def World.createSession : Except Failure (Session × World) := do
  assertSession runtime session
  match world.sessions.find? session.id with
  | some _ => .error (.other s!"MCP session {session.id} already exists.")
  | none => return (session, World.putCatalogReference runtime session.catalogRevision session.id
      { world with sessions := world.sessions.put session })

/-- `get`. -/
def World.getSession (sessionId : String) (world : World) : Except Failure (Option Session) := do
  return world.sessions.find? (← requiredIdentity sessionId "session id")

/-- `replace`. -/
def World.replaceSession (expectedVersion : Nat) (world : World) :
    Except Failure (Session × World) := do
  assertSession runtime session
  assertNextVersion session expectedVersion
  match (world.sessions.find? session.id).filter (·.version = expectedVersion) with
  | none => .error (concurrencyError session.id expectedVersion)
  | some current =>
    assertImmutableSessionIdentity current session
    let world := { world with sessions := world.sessions.put session }
    return (session, if session.state = .closed
      then World.removeCatalogReference runtime session.catalogRevision session.id world
      else World.putCatalogReference runtime session.catalogRevision session.id world)

/-- `ORDER BY expires_at, id`. -/
def earlier (first second : Session) : Bool :=
  match runtime.dates.parse first.expiresAt, runtime.dates.parse second.expiresAt with
  | some expires, some expires' => expires < expires' || (expires = expires' && runtime.collation first.id second.id)
  | _, _ => runtime.collation first.id second.id

/-- `list`. -/
def World.listSessions (serverId : String) (states : List SessionState) (limit : Int) (world : World) :
    Except Failure (List Session) := do
  if limit < 1 || 10000 < limit then
    .error (.other "MCP session list limit must be between 1 and 10000.")
  else if states = [] then .error (.other "MCP session list requires valid lifecycle states.")
  else
    let serverId ← requiredIdentity serverId "server id"
    return ((world.sessions.rows.filter fun session =>
      session.serverId = serverId && session.state ∈ states).insertionSort
        (earlier runtime · · = true)).take limit.toNat

/-- A write of the stores, which may be lost or done without an answer. -/
def World.commit {α : Type} (choice : Choice) (world : World) (written : Except Failure (α × World)) :
    Except Failure α × World :=
  if choice.takes then
    match written with
    | .error failure => (.error failure, world)
    | .ok (value, after) => (if choice.answers then .ok value else .error lost, after)
  else (.error lost, world)

def read {α : Type} (choice : Choice) (answer : Except Failure α) : Except Failure α :=
  if choice.answers then answer else .error lost

def World.answer : (request : Request) → Choice → World → request.Reply × World
  | .clock, choice, world => (choice.now, world)
  | .identifier, choice, world => (choice.identifier, world)
  | .active, choice, world => (read choice
      (activeCatalog runtime.application (world.catalogs.list runtime.application)), world)
  | .bindTools _ _ _, choice, world => (read choice (.ok ()), world)
  | .createSession session, choice, world => world.commit choice (world.createSession runtime session)
  | .getSession sessionId, choice, world => (read choice (world.getSession sessionId), world)
  | .replaceSession session expectedVersion, choice, world =>
    world.commit choice (world.replaceSession runtime session expectedVersion)
  | .listSessions serverId states limit, choice, world =>
    (read choice (world.listSessions runtime serverId states limit), world)
  | .reference revision sessionId, choice, world => world.commit choice
      (.ok ((), world.write (.put runtime.application (sessionReference revision sessionId))))
  | .release revision sessionId, choice, world => world.commit choice
      (.ok ((), world.write (.remove runtime.application revision .session sessionId)))
  | .submit operation, _, world => ((), { world with desk := world.desk.advance (.submit operation) })
  | .turn, _, world => ((), { world with desk := world.desk.advance .turn })

def server : Server Stores World Choice := ⟨World.answer runtime⟩

/-- The calls of the runtime, and the steps of the catalog manager. -/
inductive Operation where
  | initializeSession (definition : Definition) (protocolVersion : String) (principal : Principal)
  | close (definition : Definition) (sessionId : String) (principal : Principal)
  | reapExpiredSessions (definition : Definition) (limit : Int)
  | submit (operation : CatalogOperation)
  | turn

def Operation.body : Operation → McpProgram Unit
  | .initializeSession definition protocolVersion principal => do
    let _ ← Mcp.initializeSession runtime definition protocolVersion principal
  | .close definition sessionId principal => Mcp.close runtime definition sessionId principal
  | .reapExpiredSessions definition limit => do
    let _ ← Mcp.reapExpiredSessions runtime definition limit
  | .submit operation => ask (.submit operation)
  | .turn => ask .turn

abbrev System := Crowd Stores World Failure Unit Operation
abbrev Event := CrowdEvent Operation Choice

def next : System → Event → System := Crowd.advance (server runtime) (Operation.body runtime)

end
end Applik8s.Mcp
