import Applik8s.Signals.Actions
import Applik8s.Signals.LifecycleProofs

/-! What an attempt to act on a decided signal tells about the decision. Both stores take
an attempt for a repetition of the winning one by its idempotency key and action alone,
whoever makes it, and answer a repetition with the whole decision. -/
namespace Applik8s.Signals
open Lib List Option
open MemoryDesk (advance)
open Program (MayEnd mayEnd_attempt mayEnd_bind mayEnd_check mayEnd_pure)
open Actions (act read resolve validated)

structure Win where
  action : String
  input : Json
  actor : Actor
  receipt : Receipt
  decidedAt : String
  key : String
  deriving DecidableEq

variable (presented : Option (String × String)) (win : Win)

def Win.terminal : Terminal :=
  .resolved win.action win.input win.actor win.receipt win.decidedAt

def Win.secret : Json × Actor × Receipt := (win.input, win.actor, win.receipt)

def StoredInstance.wonBy (signal : StoredInstance) (win : Win) : StoredInstance :=
  { signal with terminal := some win.terminal }

structure Won (signals : String → Option StoredInstance) (resolutions : String → String → Option String)
    (signal : StoredInstance) (win : Win) : Prop where
  decided : signals signal.id = some (signal.wonBy win)
  recorded : resolutions signal.id win.key = some win.action

def replayOf (recorded : Option String) (action : String) : Replay :=
  if recorded = some action ∧ action ≠ "" then .idempotent else .terminal

/-- What a store answers about a signal that has been won. -/
structure Replies (signal : StoredInstance) (resolutions : String → Option String)
    (answers : (call : StoreCall) → call.Reply → Prop) : Prop where
  read : ∀ reply, answers (.read signal.id) reply →
    reply = .ok (some signal) ∨ ∃ message, reply = .error (.error message)
  resolve : ∀ request authorize finalize reply, request.id = signal.id →
    answers (.resolve request authorize finalize) reply →
      reply = .ok (signal, replayOf (resolutions request.idempotencyKey) request.action) ∨
        ∃ message, reply = .error (.error message)

/-- The action and the key an attempt comes to the store with. -/
def Attempt.presents (host : Host) (attempt : Attempt) : Option (String × String) :=
  if attempt.aborted then none
  else (Actions.validated attempt.definition attempt.action attempt.input).toOption.map fun payload =>
    (attempt.action, attempt.idempotencyKey.getD
      (Actions.derivedKey host attempt.reference.issuanceId attempt.action attempt.actor payload))

/-- An attempt is taken for a repetition of the winning one. -/
def Repeats : Prop :=
  presented = some (win.action, win.key) ∧ win.action ≠ ""

instance (presented : Option (String × String)) (win : Win) : Decidable (Repeats presented win) :=
  inferInstanceAs (Decidable (_ ∧ _))

def TellsNothing (first second : Win) : Prop :=
  ¬ Repeats presented first ∧ ¬ Repeats presented second ∨
    Repeats presented first ∧ Repeats presented second ∧ first.secret = second.secret

/-- The result of an attempt on a signal that has been won. -/
def disclosed (reference : SignalReference) (win : Win) (presented : Option (String × String)) : ActionResult :=
  if Repeats presented win then
    .resolved (.resolved win.action win.input win.actor win.receipt win.decidedAt reference) win.receipt
  else .alreadyResolved .resolved win.decidedAt

theorem disclosed_eq_iff {presented : Option (String × String)} (action : first.action = second.action)
    (time : first.decidedAt = second.decidedAt) : disclosed ref first presented = disclosed ref second presented ↔
      TellsNothing presented first second := by
  unfold disclosed TellsNothing Win.secret
  by_cases one : Repeats presented first <;> by_cases two : Repeats presented second <;>
    simp [one, two, action, time]

section
variable {host : Host} {signal : StoredInstance} {win : Win} {resolutions : String → Option String}
  {answers : (call : StoreCall) → call.Reply → Prop}

/-- The keys recorded for a signal that has been won: the winner's alone. -/
def OnlyKey (resolutions : String → Option String) (win : Win) : Prop :=
  ∀ key action, resolutions key = some action ↔ key = win.key ∧ action = win.action

private theorem signalActionResult_won (only : OnlyKey resolutions win) (ref : SignalReference) (action key : String) :
    signalActionResult ref action (signal.wonBy win) (replayOf (resolutions key) action) =
      .ok (disclosed ref win (some (action, key))) := by
  have recorded := only key action
  unfold signalActionResult StoredInstance.wonBy Win.terminal replayOf disclosed Repeats
  by_cases repeated : key = win.key ∧ action = win.action
  · obtain ⟨rfl, rfl⟩ := repeated
    by_cases named : win.action = "" <;> simp [recorded, named, losingResult, signalOutcome]
  have other : ¬ ((action, key) = (win.action, win.key)) := by
    simpa [and_comm] using repeated
  simp only [recorded, repeated, losingResult, other, some.injEq, false_and, if_false, ne_eq, not_true_eq_false]

private theorem mayEnd_read {id : String} : (Actions.read id).MayEnd answers res ↔
      ∃ reply, answers (.read id) reply ∧ res = reply.mapError .failed := by
  simp [Actions.read, MayEnd]

private theorem mayEnd_resolve : (resolve req authorize finalize).MayEnd answers res ↔
      ∃ reply, answers (.resolve req (some authorize) finalize) reply ∧ res = reply.mapError .failed := by
  simp [resolve, MayEnd]

/-- How an attempt on a signal that has been won ends: with a failure no client is told of,
with a rejected payload, or with what is disclosed to it. -/
inductive Concludes (host : Host) (attempt : Attempt) (win : Win) : Except ActionFailure ActionResult → Prop where
  | broken {failure : ActionFailure} (untold : Gateway.respond (.error failure) = .error failure) :
      Concludes host attempt win (.error failure)
  | invalid (message : String) (unpresented : attempt.presents host = none) :
      Concludes host attempt win (.error (.invalidInput message))
  | told (presented : (attempt.presents host).isSome) :
      Concludes host attempt win (.ok (disclosed attempt.reference win (attempt.presents host)))

private theorem concludes_of_invalid {err : ActionFailure}
    (invalid : validated attempt.definition attempt.action attempt.input = .error err) :
    Concludes host attempt win (.error err) := by
  have unpresented : attempt.presents host = none := by
    simp [Attempt.presents, invalid, Except.toOption]
  unfold validated at invalid
  split at invalid
  · cases invalid
    exact .broken rfl
  · split at invalid <;> cases invalid
    exact .invalid _ unpresented

theorem act_won (replies : Replies (signal.wonBy win) resolutions answers) (only : OnlyKey resolutions win)
    (about : attempt.reference.issuanceId = signal.id) (ended : (act host attempt).MayEnd answers res) :
    Concludes host attempt win res := by
  unfold act at ended
  by_cases aborted : attempt.aborted = true
  · rw [if_pos aborted, Program.mayEnd_throw] at ended
    exact ended ▸ .broken rfl
  rw [if_neg aborted, mayEnd_bind] at ended
  obtain ⟨_, came, ended⟩ := ended
  obtain ⟨reply, answered, rfl⟩ := mayEnd_read.mp came
  rw [about] at answered
  rcases replies.read reply answered with rfl | ⟨msg, rfl⟩
  swap
  · exact ended ▸ .broken rfl
  dsimp only [Except.mapError] at ended
  rw [mayEnd_bind] at ended
  obtain ⟨_, came, ended⟩ := ended
  rw [mayEnd_check] at came
  subst came
  cases valid : validated attempt.definition attempt.action attempt.input with
  | error =>
    rw [valid] at ended
    exact ended ▸ concludes_of_invalid valid
  | ok payload =>
    rw [valid] at ended
    dsimp only at ended
    rw [mayEnd_bind] at ended
    obtain ⟨_, came, ended⟩ := ended
    obtain ⟨reply, answered, rfl⟩ := mayEnd_resolve.mp came
    have presents : attempt.presents host = some (attempt.action, attempt.idempotencyKey.getD
        (Actions.derivedKey host signal.id attempt.action attempt.actor payload)) := by
      simp [Attempt.presents, aborted, valid, Except.toOption, about]
    rcases replies.resolve _ _ _ reply rfl answered with rfl | ⟨_, rfl⟩
    swap
    · exact ended ▸ .broken rfl
    dsimp only [Except.mapError] at ended
    dsimp only [Actions.resolutionOf] at ended
    rw [mayEnd_check, signalActionResult_won only] at ended
    rw [ended]
    have told : Concludes host attempt win _ := .told (by simp [presents])
    rw [presents] at told
    exact told

end

namespace Gateway
variable {host : Host} {gateway : Gateway} {request : GatewayRequest} {definition : SignalDefinition}
  {identity : Identity} {action : String} {signal : StoredInstance} {first second : Win}

/-- The action and the key a request comes to the store with, once it is about an action. -/
def actionPresents (host : Host) (gateway : Gateway) (request : GatewayRequest) (definition : SignalDefinition)
    (signal : StoredInstance) (identity : Identity) (action : String) : Option (String × String) :=
  if request.method = "POST" ∧ (definition.actions.lookup action).isSome then
    match request.body with
    | .error _ => none
    | .ok (input, key) =>
      (gateway.attemptOf definition signal identity action input key request.aborted).presents host
  else none

/-- The action and the key a request on a signal comes to the store with. -/
def presents (host : Host) (gateway : Gateway) (signal : StoredInstance) (request : GatewayRequest) :
    Option (String × String) := do
  let route ← request.route
  let definition ← gateway.definitions.find? fun definition => definition.id = route.contractId
  let identity ← gateway.identify request
  let action ← route.action
  if signal.contract.id = definition.id then
    gateway.actionPresents host request definition signal identity action
  else none

private theorem tellsNothing_none : TellsNothing none first second := by
  simp [TellsNothing, Repeats]

private theorem same_iff_of_unpresented {α : Type} {resp other : α} {presented : Option (String × String)}
    (same : resp = other) (unpresented : presented = none) : resp = other ↔ TellsNothing presented first second :=
  ⟨fun _ => unpresented ▸ tellsNothing_none, fun _ => same⟩

private theorem respond_concluded {win : Win} (concludes : Concludes host attempt win res)
    (responds : Except.ok resp = respond res) :
    (attempt.presents host = none ∧ resp = failure "invalid_input" 400) ∨ ((attempt.presents host).isSome ∧
        resp = signalJson (.result (disclosed attempt.reference win (attempt.presents host))) 200) := by
  cases concludes with
  | broken untold => rw [untold] at responds; cases responds
  | invalid msg unpresented => exact .inl ⟨unpresented, by cases responds; rfl⟩
  | told presented => exact .inr ⟨presented, by cases responds; rfl⟩

theorem handleAction_tells (sameAction : first.action = second.action) (time : first.decidedAt = second.decidedAt)
    (replies : Replies (signal.wonBy first) here one) (only : OnlyKey here first)
    (others : Replies (signal.wonBy second) there two) (alone : OnlyKey there second)
    (ended : (gateway.handleAction host request definition (signal.wonBy first) identity action).MayEnd one (.ok resp))
    (also : (gateway.handleAction host request definition (signal.wonBy second) identity action).MayEnd two (.ok other))
    : resp = other ↔
      TellsNothing (gateway.actionPresents host request definition signal identity action) first second := by
  unfold handleAction at ended also
  by_cases posted : request.method = "POST"
  swap
  · rw [if_pos posted, mayEnd_pure] at ended also
    cases ended
    cases also
    exact same_iff_of_unpresented rfl (if_neg fun both => posted both.1)
  rw [if_neg (not_not.mpr posted)] at ended also
  by_cases undeclared : (definition.actions.lookup action).isNone = true
  · rw [if_pos undeclared, mayEnd_pure] at ended also
    cases ended
    cases also
    exact same_iff_of_unpresented rfl (if_neg fun both => by simp [isNone_iff_eq_none.mp undeclared] at both)
  rw [if_neg undeclared] at ended also
  have presents : gateway.actionPresents host request definition signal identity action = _ :=
    if_pos ⟨posted, isSome_iff_ne_none.mpr fun none => undeclared (by rw [none]; rfl)⟩
  rw [presents]
  cases body : request.body with
  | error bad =>
    rw [body] at ended also
    cases ended
    cases also
    exact same_iff_of_unpresented rfl rfl
  | ok content =>
    obtain ⟨input, key⟩ := content
    rw [body] at ended also
    rw [mayEnd_bind] at ended also
    obtain ⟨_, attempted, ended⟩ := ended
    obtain ⟨_, tried, also⟩ := also
    obtain ⟨res, acted, rfl⟩ := mayEnd_attempt.mp attempted
    obtain ⟨_, done, rfl⟩ := mayEnd_attempt.mp tried
    replace ended := mayEnd_check.mp ended
    replace also := mayEnd_check.mp also
    have mine := respond_concluded (act_won replies only rfl acted) ended
    have theirs := respond_concluded (act_won others alone rfl done) also
    -- the attempts differ only in the terminal state of the signal, which they do not look at
    change _ = _ ↔ TellsNothing (Attempt.presents host (gateway.attemptOf definition (signal.wonBy first) identity
      action input key request.aborted)) first second
    rcases mine with ⟨unpresented, rfl⟩ | ⟨presented, rfl⟩
    · rcases theirs with ⟨_, rfl⟩ | ⟨presented, _⟩
      · exact same_iff_of_unpresented rfl unpresented
      · exact absurd unpresented (isSome_iff_ne_none.mp presented)
    rcases theirs with ⟨unpresented, _⟩ | ⟨_, rfl⟩
    · exact absurd unpresented (isSome_iff_ne_none.mp presented)
    · rw [← disclosed_eq_iff sameAction time]
      simp only [signalJson, Response.mk.injEq, ResponseBody.result.injEq, and_true]
      exact Iff.rfl

private theorem filter_wonBy {win : Win} :
    (some (signal.wonBy win)).filter (fun signal => signal.contract.id = definition.id) =
      if signal.contract.id = definition.id then some (signal.wonBy win) else none := by
  by_cases same : signal.contract.id = definition.id <;> simp [Option.filter, StoredInstance.wonBy, same]

theorem handle_tells (sameAction : first.action = second.action) (time : first.decidedAt = second.decidedAt)
    (replies : Replies (signal.wonBy first) here one) (only : OnlyKey here first)
    (others : Replies (signal.wonBy second) there two) (alone : OnlyKey there second)
    (routed : req.route = some route) (about : route.signalId = signal.id) (acts : route.action = some action)
    (ended : (gateway.handle host req).MayEnd one (.ok resp))
    (also : (gateway.handle host req).MayEnd two (.ok other)) :
    resp = other ↔ TellsNothing (gateway.presents host signal req) first second := by
  unfold handle at ended also
  rw [routed] at ended also
  dsimp only at ended also
  unfold presents
  rw [routed, bind_eq_bind, bind_some]
  cases found : gateway.definitions.find? fun defn => defn.id = route.contractId with
  | none =>
    rw [found] at ended also
    cases ended
    cases also
    exact same_iff_of_unpresented rfl rfl
  | some defn =>
    rw [found] at ended also
    rw [mayEnd_bind] at ended also
    obtain ⟨read, came, ended⟩ := ended
    obtain ⟨_, gave, also⟩ := also
    obtain ⟨reply, answered, rfl⟩ := mayEnd_read.mp came
    obtain ⟨reading, given, rfl⟩ := mayEnd_read.mp gave
    rw [about] at answered given
    rcases replies.read reply answered with rfl | ⟨msg, rfl⟩
    swap
    · cases ended
    rcases others.read reading given with rfl | ⟨_, rfl⟩
    swap
    · cases also
    dsimp only [Except.mapError] at ended also
    rw [filter_wonBy] at ended also
    by_cases contract : signal.contract.id = defn.id
    swap
    · rw [if_neg contract] at ended also
      cases ended
      cases also
      refine same_iff_of_unpresented rfl ?_
      simp [contract]
    rw [if_pos contract] at ended also
    cases known : gateway.identify req with
    | none =>
      rw [known] at ended also
      cases ended
      cases also
      exact same_iff_of_unpresented rfl rfl
    | some =>
      rw [known, acts] at ended also
      rw [mayEnd_bind] at ended also
      obtain ⟨res, handled, ended⟩ := ended
      obtain ⟨out, served, also⟩ := also
      cases res with
      | error failed => cases ended
      | ok mine =>
        cases out with
        | error failed => cases also
        | ok theirs =>
          cases ended
          cases also
          have tells := handleAction_tells sameAction time replies only others alone handled served
          simpa [acts, contract] using tells

end Gateway
/-! ### The memory store -/

/-- What the memory store may answer to calls made after `earlier` in a run. -/
def MemoryAnswers (host : Host) (earlier later : List MemoryEvent) : (call : StoreCall) → call.Reply → Prop
  | .read id, reply => ∃ upTo, upTo <+: later ∧
      reply = .ok ((runFrom (MemoryDesk.advance host) .fresh (earlier ++ upTo)).world.byId.find? id)
  | .resolve request authorize finalize, reply => ∃ upTo more desk final,
      upTo ++ .turn :: more <+: later ∧ desk = runFrom (MemoryDesk.advance host) .fresh (earlier ++ upTo) ∧
      desk.running = none ∧ desk.waiting.head? = some (.resolve request authorize finalize) ∧
      (runFrom (MemoryDesk.advance host) desk (.turn :: more)).settled =
        ⟨.resolve request authorize finalize, desk.world,
          reply.map fun answer => .resolved answer.1 answer.2, final⟩ :: desk.settled

section
variable {signal : StoredInstance} {win : Win}

private theorem onlyKey_of_won {ledger : Ledger} (orderly : ledger.Orderly host)
    (won : Won ledger.signals ledger.resolutions signal win) : OnlyKey (ledger.resolutions signal.id) win := by
  intro key action
  constructor
  · intro recorded
    have same := orderly.single signal.id key win.key (by simp [recorded]) (by simp [won.recorded])
    subst same
    exact ⟨rfl, some.inj (recorded.symm.trans won.recorded)⟩
  · rintro ⟨rfl, rfl⟩
    exact won.recorded

private theorem stretch_resolve_decided (held : store.byId.find? req.id = some cur)
    (decided : cur.terminal.isSome) : memoryFloor.stretch (Memory.resolve host req authorize finalize) store =
      (.done (.resolved cur (replayOf (store.resolutionKeys (Memory.resolutionKey req)) req.action)),
        store) := by
  have resolution : ∀ {next : Option String → MemoryProgram Answer},
      memoryFloor.stretch (Memory.resolution (Memory.resolutionKey req) >>= next) store =
        memoryFloor.stretch (next (store.resolutionKeys (Memory.resolutionKey req))) store := rfl
  have instanceOf : ∀ {next : Option StoredInstance → MemoryProgram Answer},
      memoryFloor.stretch (Memory.instanceOf req.id >>= next) store =
        memoryFloor.stretch (next (store.byId.find? req.id)) store := rfl
  unfold Memory.resolve
  rw [resolution, instanceOf, held]
  unfold replayOf whenTruthy truthy
  cases store.resolutionKeys (Memory.resolutionKey req) with
  | none => simp [Floor.stretch, decided, pure]
  | some action =>
    by_cases named : action = ""
    · subst named
      simp [Floor.stretch, decided, pure]
    by_cases same : action = req.action
    · subst same
      simp [Floor.stretch, named, pure]
    · simp [Floor.stretch, named, same, pure]

private theorem recorded_text {store : MemoryStore} {id : String} (held : store.byId.find? id = some cur) :
    store.ledger.resolutions id key = store.resolutionKeys (id ++ "\x00" ++ key) := by
  simp [MemoryStore.ledger, held]

private theorem settled_resolve_decided (idle : desk.running = none)
    (next : desk.waiting.head? = some (.resolve req authorize finalize))
    (held : desk.world.byId.find? req.id = some cur) (decided : cur.terminal.isSome) :
    (advance host desk .turn).settled = ⟨.resolve req authorize finalize, desk.world, .ok (.resolved cur
        (replayOf (desk.world.resolutionKeys (Memory.resolutionKey req)) req.action)), desk.world⟩ ::
      desk.settled := by
  obtain ⟨rest, queue⟩ : ∃ rest, desk.waiting = .resolve req authorize finalize :: rest := by
    cases waiting : desk.waiting with
    | nil => simp [waiting] at next
    | cons _ rest =>
      rw [waiting] at next
      cases next
      exact ⟨rest, rfl⟩
  unfold advance Desk.advance
  rw [idle, queue]
  dsimp only [Operation.inMemory]
  rw [stretch_resolve_decided held decided]
  rfl

private theorem result_of_settled (idle : desk.running = none)
    (next : desk.waiting.head? = some (.resolve req authorize finalize))
    (held : desk.world.byId.find? req.id = some cur) (decided : cur.terminal.isSome)
    (settled : (runFrom (advance host) desk (.turn :: more)).settled = entry :: desk.settled) :
    entry.result = .ok (.resolved cur
      (replayOf (desk.world.resolutionKeys (Memory.resolutionKey req)) req.action)) := by
  have once : (advance host desk .turn).settled = _ := settled_resolve_decided idle next held decided
  have later := Desk.settled_run memoryFloor (Operation.inMemory host) (advance host desk .turn) more
  change _ <:+ (runFrom (advance host) desk (.turn :: more)).settled at later
  rw [once, settled] at later
  rw [← (cons.inj (later.eq_of_length rfl)).1]

variable {earlier later : List MemoryEvent}

private theorem submittedKeys_mono (within : earlier <+: later) : submittedKeys earlier ⊆ submittedKeys later :=
  fun _ ⟨op, member, issued⟩ => ⟨op, within.subset member, issued⟩

private theorem memory_unchanged (distinct : Collisionless host (submittedKeys (earlier ++ later)))
    (within : upTo <+: later)
    (held : (runFrom (advance host) .fresh earlier).world.ledger.signals signal.id = some cur)
    (decided : cur.terminal.isSome) :
    Ledger.Unchanged signal.id (runFrom (advance host) .fresh earlier).world.ledger
      (runFrom (advance host) .fresh (earlier ++ upTo)).world.ledger := by
  have inside : earlier ++ upTo <+: earlier ++ later := prefix_append_right_inj earlier |>.mpr within
  exact Ledger.entries_unchanged held decided (memory_entries (distinct.mono (submittedKeys_mono inside)))

theorem memory_replies {host : Host} {ledger : Ledger}
    (reached : ledger = (runFrom (advance host) .fresh earlier).world.ledger)
    (distinct : Collisionless host (submittedKeys (earlier ++ later)))
    (won : Won ledger.signals ledger.resolutions signal win) :
    Replies (signal.wonBy win) (ledger.resolutions signal.id) (MemoryAnswers host earlier later) where
  read reply := by
    rintro ⟨upTo, within, rfl⟩
    subst reached
    have same := (memory_unchanged distinct within won.decided rfl).signals
    exact .inl (congrArg _ (same.trans won.decided))
  resolve req authorize finalize reply about := by
    have about' : req.id = signal.id := about
    rintro ⟨upTo, _, _, _, within, rfl, idle, next, settled⟩
    subst reached
    have unchanged := memory_unchanged distinct ((prefix_append upTo _).trans within) won.decided rfl
    have held := unchanged.signals.trans won.decided
    have recorded := congrFun unchanged.resolutions req.idempotencyKey
    rw [← about'] at held recorded
    have res := result_of_settled idle next held rfl settled
    rw [Memory.resolutionKey, ← recorded_text held, recorded, about'] at res
    cases reply with
    | error => cases res
    | ok answer =>
      obtain ⟨_, _⟩ := answer
      cases res
      exact .inl rfl

end
/-! ### The PostgreSQL store -/

def resolutionsOf (rows : SignalRows) (id key : String) : Option String :=
  (rows (.resolution id key)).map ResolutionRow.action

/-- What the PostgreSQL store may answer to calls made after `earlier` in a run. Any call
may fail in the driver. -/
def PostgresAnswers (host : PostgresHost) (earlier later : List (SignalEvent host)) :
    (call : StoreCall) → call.Reply → Prop
  | .read id, reply => reply = .error sqlFailure ∨ ∃ upTo, upTo <+: later ∧
      reply = ((runFrom (SignalDatabase.advance host) (.fresh host) (earlier ++ upTo)).rows (.signal id)).mapM
        (Postgres.postgresSignalInstance host)
  | .resolve request authorize finalize, reply => reply = .error sqlFailure ∨ ∃ upTo, upTo <+: later ∧
      ∃ call ∈ (runFrom (SignalDatabase.advance host) (.fresh host) (earlier ++ later)).closed,
        call.operation = .mutate (.resolve request authorize finalize) ∧
        call.origin = (runFrom (SignalDatabase.advance host) (.fresh host) (earlier ++ upTo)).rows ∧
        call.result = reply.map fun answer => some (.resolved answer.1 answer.2)

section
variable {host : PostgresHost} {known : Set String} {signal : StoredInstance} {rows origin : SignalRows}

/-- What a resolution of a signal comes to that was decided when it began. -/
def Repeated (host : PostgresHost) (step : PostgresOperation) (origin : SignalRows)
    (result : Except Failure (Option Answer)) : Prop :=
  ∀ request authorize finalize signal, step = .mutate (.resolve request authorize finalize) →
    signalsOf host origin request.id = some signal → signal.terminal.isSome →
    result = .ok (some (.resolved signal
      (replayOf (resolutionsOf origin request.id request.idempotencyKey) request.action))) ∨
    ∃ message, result = .error (.error message)

variable {current : StoredInstance}

private theorem decided_stays {id : String} (since : (signalAccord host known watch).related origin rows)
    (began : (signalAccord host known watch).invariant origin) (held : signalsOf host origin id = some cur)
    (decided : cur.terminal.isSome) :
    signalsOf host rows id = some cur ∧ resolutionsOf rows id = resolutionsOf origin id := by
  obtain ⟨ledger, stores⟩ := began.1
  obtain ⟨_, stored, entries⟩ := since ledger stores
  have unchanged := Ledger.entries_unchanged ((stores.signals id).trans held) decided entries
  refine ⟨((stored.signals id).symm.trans unchanged.signals).trans ((stores.signals id).trans held), ?_⟩
  funext key
  exact ((stored.resolutions id key).symm.trans (congrFun unchanged.resolutions key)).trans (stores.resolutions id key)

private def Plain {α : Type} (outcome : Except Failure α) : Prop :=
  ∀ failure, outcome = .error failure → ∃ message, failure = .error message

private theorem plain_bind {α β : Type} {out : Except Failure α} {next : α → Except Failure β}
    (first : Plain out) (rest : ∀ value, Plain (next value)) : Plain (out >>= next) := by
  cases out with
  | error err => exact fun other same => by cases same; exact first err rfl
  | ok value => exact rest value

private theorem plain_required (value field : String) :
    Plain (Postgres.requiredPostgresSignalString value field) := by
  intro err failed
  unfold Postgres.requiredPostgresSignalString at failed
  split at failed <;> cases failed
  exact ⟨_, rfl⟩

private theorem plain_instance (row : SignalRow) : Plain (Postgres.postgresSignalInstance host row) :=
  plain_bind (plain_required _ _) fun _ => plain_bind (plain_required _ _) fun _ =>
    plain_bind (plain_required _ _) fun _ => plain_bind (plain_required _ _) fun _ =>
      plain_bind (plain_required _ _) fun _ _ other => nomatch other

private theorem read_cases (row : SignalRow) :
    (some row).mapM (Postgres.postgresSignalInstance host) = .ok (some (Postgres.signalInstance host row)) ∨
      ∃ msg, (some row).mapM (Postgres.postgresSignalInstance host) = .error (.error msg) := by
  simp only [mapM_some]
  cases read : Postgres.postgresSignalInstance host row with
  | error err =>
    obtain ⟨msg, rfl⟩ := plain_instance row err read
    exact .inr ⟨msg, rfl⟩
  | ok =>
    obtain rfl := postgresSignalInstance_ok read
    exact .inl rfl

variable {request : ResolutionRequest} {authorize : Option ResolutionAuthorizer} {finalize : TerminalFinalizer}

theorem resolve_repeats (began : (signalAccord host known watch).invariant origin)
    (held : signalsOf host origin req.id = some cur) (decided : cur.terminal.isSome) :
    Upholds (signalAccord host known watch) (fun res _ _ => res = .ok (.resolved cur
        (replayOf (resolutionsOf origin req.id req.idempotencyKey) req.action)) ∨
      ∃ msg, res = .error (.error msg)) origin .start
      (Postgres.resolve host req authorize finalize) := by
  refine upholds_run (fun _ _ => .inr ⟨_, rfl⟩) fun rows choice reply writes since kept holds acted => ?_
  obtain ⟨stays, _⟩ := decided_stays since began held decided
  obtain ⟨row, here, rfl⟩ := map_eq_some_iff.mp stays
  obtain ⟨rfl, rfl⟩ : some row = reply ∧ [⟨.signal req.id, some row⟩] = writes := by
    have viewed : (Session.start : Session (signalDialect host)).view rows (.signal req.id) = some row := here
    simp only [signalAct, updateSignal, viewed, bind_some] at acted
    exact Prod.mk.inj (some.inj acted)
  rw [upholds_bind, upholds_check]
  cases read : Postgres.postgresSignalInstance host row with
  | error err =>
    obtain ⟨msg, rfl⟩ := plain_instance row err read
    exact .inr ⟨msg, rfl⟩
  | ok =>
    obtain rfl := postgresSignalInstance_ok read
    refine upholds_run (fun _ _ => .inr ⟨_, rfl⟩) fun later choice replay writes further kept holds acted => ?_
    have recorded : replay.map ResolutionRow.action = resolutionsOf origin req.id req.idempotencyKey := by
      have apart : SignalKey.resolution req.id req.idempotencyKey ∉
          touched ([⟨.signal req.id, some row⟩] : Writes (signalDialect host)) := by simp [touched]
      have replies := (Prod.mk.inj (some.inj acted)).1
      rw [Session.view_take, overwrite_untouched apart] at replies
      obtain ⟨_, same⟩ := decided_stays ((signalAccord host known watch).trans since further) began held decided
      rw [← replies, ← same]
      rfl
    rw [← recorded]
    cases replay with
    | none =>
      rw [if_pos decided]
      exact .inl rfl
    | some replay =>
      rw [upholds_bind, upholds_check]
      cases required : Postgres.requiredPostgresSignalString replay.action "action" with
      | error err =>
        obtain ⟨msg, rfl⟩ := plain_required _ _ err required
        exact .inr ⟨msg, rfl⟩
      | ok _ =>
        have named : replay.action ≠ "" := by
          intro empty
          rw [empty] at required
          cases required
        refine .inl ?_
        by_cases same : replay.action = req.action
        · rw [same] at named
          simp [replayOf, same, named]
        · simp [replayOf, same]

private theorem repeated_of_came (held : signalsOf host origin req.id = some cur) {res : Except Failure Answer}
    (came : res = .ok (.resolved cur (replayOf (resolutionsOf origin req.id req.idempotencyKey) req.action)) ∨
      ∃ msg, res = .error (.error msg)) :
    Repeated host (.mutate (.resolve req authorize finalize)) origin (res.map some) := by
  intro other authorizing finalizing found same here _
  cases same
  cases held.symm.trans here
  rcases came with rfl | ⟨msg, rfl⟩
  · exact .inl rfl
  · exact .inr ⟨msg, rfl⟩

/-- The regime of the store, with what it tells those who come late. -/
def repeatingRegime (host : PostgresHost) (known : Set String) (distinct : Collisionless host.toHost known) :
    Regime (signalDialect host) sqlFailure (PostgresOperation.body host) :=
  (signalRegime host known distinct (.none host.toHost known)).also
    (fun step origin result _ _ => Repeated host step origin result) fun step origin admitted began => by
      by_cases late : ∃ request authorize finalize current, step = .mutate (.resolve request authorize finalize) ∧
          signalsOf host origin request.id = some current ∧ current.terminal.isSome
      · obtain ⟨request, authorize, finalize, current, rfl, held, decided⟩ := late
        refine upholds_bind.mpr (Upholds.weaken (fun result seen session came => ?_)
          (resolve_repeats began held decided))
        cases result with
        | error => exact fun _ _ _ _ => repeated_of_came held came
        | ok answer =>
          intro rows _ _ _
          split
          · rename_i same _
            cases same
            exact repeated_of_came held came
          · exact repeated_of_came held (.inr ⟨_, rfl⟩)
          · rename_i same
            cases same
      · refine upholds_of_always fun result seen session rows _ _ _ => ?_
        have vacuous : ∀ result, Repeated host step origin result :=
          fun result request authorize finalize current same held decided =>
            absurd ⟨request, authorize, finalize, current, same, held, decided⟩ late
        split <;> exact vacuous _

variable {earlier later : List (SignalEvent host)}

private theorem begunKeys_mono (within : earlier <+: later) : begunKeys earlier ⊆ begunKeys later :=
  fun _ ⟨client, op, member, issued⟩ => ⟨client, op, within.subset member, issued⟩

private theorem postgres_unchanged {now : SignalRows}
    (distinct : Collisionless host.toHost (begunKeys (earlier ++ later))) (within : upTo <+: later)
    (reached : rows = (runFrom (SignalDatabase.advance host) (.fresh host) earlier).rows)
    (held : signalsOf host rows signal.id = some cur) (decided : cur.terminal.isSome)
    (since : now = (runFrom (SignalDatabase.advance host) (.fresh host) (earlier ++ upTo)).rows) :
    signalsOf host now signal.id = some cur ∧ resolutionsOf now signal.id = resolutionsOf rows signal.id := by
  obtain ⟨_, rfl⟩ := within
  obtain ⟨first, second⟩ := eachStep_append.mp (postgres_observed distinct)
  obtain ⟨kept, _⟩ := Regime.run_kept (postgres_start distinct) first
  obtain ⟨_, related⟩ := Regime.run_kept kept (eachStep_append.mp second).1
  subst reached since
  rw [runFrom_append]
  exact decided_stays related kept.invariant held decided

theorem postgres_replies {win : Win}
    (reached : rows = (runFrom (SignalDatabase.advance host) (.fresh host) earlier).rows)
    (distinct : Collisionless host.toHost (begunKeys (earlier ++ later)))
    (won : Won (signalsOf host rows) (resolutionsOf rows) signal win) :
    Replies (signal.wonBy win) (resolutionsOf rows signal.id) (PostgresAnswers host earlier later) where
  read reply := by
    rintro (rfl | ⟨upTo, within, rfl⟩)
    · exact .inr ⟨_, rfl⟩
    obtain ⟨stays, _⟩ := postgres_unchanged distinct within reached won.decided rfl rfl
    obtain ⟨row, here, read⟩ := map_eq_some_iff.mp stays
    have stored : (runFrom (SignalDatabase.advance host) (.fresh host) (earlier ++ upTo)).rows
      (.signal (signal.wonBy win).id) = some row := here
    rw [stored, ← read]
    exact read_cases row
  resolve req authorize finalize reply about := by
    rintro (rfl | ⟨_, within, call, closed, op, origin, res⟩)
    · exact .inr ⟨_, rfl⟩
    have about' : req.id = signal.id := about
    obtain ⟨stays, recorded⟩ := postgres_unchanged distinct within reached won.decided rfl origin
    rw [← about'] at stays recorded
    let regime := repeatingRegime host (begunKeys (earlier ++ later)) distinct
    have start : regime.Kept (SignalDatabase.fresh host) :=
      Regime.kept_idle _ ⟨⟨.empty, stores_empty⟩, trivial⟩
    have observed : regime.Observed (SignalDatabase.fresh host) (earlier ++ later) := postgres_observed distinct
    obtain ⟨kept, _⟩ := Regime.run_kept start observed
    have repeated := (kept.closed call closed).outcome.2 req authorize finalize _ op stays rfl
    rw [recorded, about', res] at repeated
    cases reply with
    | error =>
      rcases repeated with told | ⟨msg, failed⟩
      · cases told
      · cases failed
        exact .inr ⟨msg, rfl⟩
    | ok answer =>
      obtain ⟨_, _⟩ := answer
      rcases repeated with told | ⟨_, failed⟩
      · cases told
        exact .inl rfl
      · cases failed

end
/-- The answers a store may give once a signal has been won in a run of it. -/
inductive AfterWin (host : PostgresHost) (signal : StoredInstance) (win : Win) :
    ((call : StoreCall) → call.Reply → Prop) → Prop where
  | memory (earlier later : List MemoryEvent)
      (distinct : Collisionless host.toHost (submittedKeys (earlier ++ later)))
      (won : Won (runFrom (MemoryDesk.advance host.toHost) .fresh earlier).world.ledger.signals
        (runFrom (MemoryDesk.advance host.toHost) .fresh earlier).world.ledger.resolutions signal win) :
      AfterWin host signal win (MemoryAnswers host.toHost earlier later)
  | postgres (earlier later : List (SignalEvent host))
      (distinct : Collisionless host.toHost (begunKeys (earlier ++ later)))
      (won : Won (signalsOf host (runFrom (SignalDatabase.advance host) (.fresh host) earlier).rows)
        (resolutionsOf (runFrom (SignalDatabase.advance host) (.fresh host) earlier).rows) signal win) :
      AfterWin host signal win (PostgresAnswers host earlier later)

theorem AfterWin.replies {win : Win} {answers : (call : StoreCall) → call.Reply → Prop}
    (after : AfterWin host signal win answers) :
    ∃ resolutions, Replies (signal.wonBy win) resolutions answers ∧ OnlyKey resolutions win := by
  cases after with
  | memory earlier later distinct won =>
    have inside := submittedKeys_mono (prefix_append earlier later)
    have orderly := (memory_lifecycle (distinct.mono inside)).orderly
    exact ⟨_, memory_replies rfl distinct won, onlyKey_of_won orderly won⟩
  | postgres earlier later distinct won =>
    have inside := begunKeys_mono (prefix_append earlier later)
    obtain ⟨ledger, stores, orderly⟩ := (postgres_lifecycle (distinct.mono inside)).orderly
    refine ⟨_, postgres_replies rfl distinct won, ?_⟩
    have same : ledger.resolutions signal.id = resolutionsOf _ signal.id := funext (stores.resolutions signal.id)
    rw [← same]
    refine onlyKey_of_won orderly ⟨(stores.signals signal.id).trans won.decided, ?_⟩
    rw [same]
    exact won.recorded

/-- Attempts on a signal after it was won, in any two runs that differ in who won it with
which input and receipt: their results, and the responses of a gateway, are the same
exactly when neither is taken for a repetition of the winning attempt. -/
theorem losing_attempts_tell_nothing {host : PostgresHost} {signal : StoredInstance} {first second : Win}
    (action : first.action = second.action) (time : first.decidedAt = second.decidedAt)
    {one two : (call : StoreCall) → call.Reply → Prop} (here : AfterWin host signal first one)
    (there : AfterWin host signal second two) :
    (∀ (attempt : Attempt) value other, attempt.reference.issuanceId = signal.id →
      (Actions.act host.toHost attempt).MayEnd one (.ok value) →
      (Actions.act host.toHost attempt).MayEnd two (.ok other) →
      (value = other ↔ TellsNothing (attempt.presents host.toHost) first second)) ∧
    ∀ (gateway : Gateway) request route response other, request.route = some route →
      route.signalId = signal.id → route.action.isSome →
      (gateway.handle host.toHost request).MayEnd one (.ok response) →
      (gateway.handle host.toHost request).MayEnd two (.ok other) →
      (response = other ↔ TellsNothing (gateway.presents host.toHost signal request) first second) := by
  obtain ⟨_, replies, only⟩ := here.replies
  obtain ⟨_, others, alone⟩ := there.replies
  constructor
  · intro attempt value other about ended also
    cases act_won replies only about ended with
    | told =>
      cases act_won others alone about also with
      | told => exact disclosed_eq_iff action time
  · intro gateway request route response other routed about acts ended also
    obtain ⟨_, acts⟩ := isSome_iff_exists.mp acts
    exact gateway.handle_tells action time replies only others alone routed about acts ended also

/-! ### A stranger with the winner's key -/

private theorem memoryAnswers_resolve (idle : (runFrom (advance host) .fresh earlier).running = none)
    (empty : (runFrom (advance host) .fresh earlier).waiting = [])
    (held : (runFrom (advance host) .fresh earlier).world.byId.find? req.id = some cur)
    (decided : cur.terminal.isSome) : MemoryAnswers host earlier [.submit (.resolve req authorize finalize), .turn]
      (.resolve req authorize finalize) (.ok (cur, replayOf
        ((runFrom (advance host) .fresh earlier).world.resolutionKeys (Memory.resolutionKey req))
          req.action)) := by
  have queued : runFrom (advance host) .fresh (earlier ++ [.submit (.resolve req authorize finalize)]) =
      { runFrom (advance host) .fresh earlier with
        waiting := [.resolve req authorize finalize] } := by
    rw [runFrom_append]
    change Desk.mk _ _ (_ ++ [_]) _ = _
    rw [empty]
    rfl
  exact ⟨_, [], _, _, prefix_rfl, queued.symm, idle, rfl, settled_resolve_decided idle rfl held decided⟩

def reviewInstance : StoredInstance :=
  issuedInstance reviewRequest (signalIdOf sampleHost.toHost "approval-1") none

/-- The review approved by someone, under a key anyone may guess. -/
def approvedBy (actor comment : String) : Win where
  action := "approve"
  input := ⟨comment⟩
  actor := { id := actor }
  receipt := ⟨"receipt:" ++ actor⟩
  decidedAt := "2026-07-29T00:30:00.000Z"
  key := "approval"

def winningRun (win : Win) : List MemoryEvent :=
  [.submit (.issue reviewRequest fun _ _ => .ok none), .submit (.resolve
     { id := reviewInstance.id, action := win.action, input := win.input, actor := win.actor
       receipt := some win.receipt, decidedAt := win.decidedAt, idempotencyKey := win.key }
     none fun _ _ => .ok ()),
   .turn, .turn, .turn, .turn]

/-- Another actor approves as well, under a key of their choice. -/
def intrusion (key : String) : Attempt where
  definition := reviewSignal
  reference := signalReference reviewInstance
  actor := { id := "mallory" }
  action := "approve"
  input := ⟨"{}"⟩
  idempotencyKey := some key
  now := "2026-07-29T00:45:00.000Z"
  authorizeAction _ _ _ _ := .error .denied
  finalizeAction _ _ := .ok ()

/-- The rest of the run: the attempt's resolution, taken up. -/
def intruding (key : String) : List MemoryEvent :=
  let attempt := intrusion key
  [.submit (.resolve (Actions.resolutionOf sampleHost.toHost attempt reviewInstance.id ⟨"{}"⟩)
    (some attempt.authorizer) attempt.finalizeAction), .turn]

/-- How far a winning run has come: the store is idle and has recorded the decision. -/
def recordsWin (win : Win) (desk : MemoryDesk) : Bool :=
  desk.running.isNone && desk.waiting.isEmpty &&
    desk.world.byId.find? reviewInstance.id = some (reviewInstance.wonBy win) &&
    desk.world.resolutionKeys (reviewInstance.id ++ "\x00" ++ win.key) = some win.action

variable (win : Win) (key : String)

private theorem intrusion_ends
    (records : recordsWin win (runFrom (advance sampleHost.toHost) .fresh (winningRun win)) = true) :
    (act sampleHost.toHost (intrusion key)).MayEnd (MemoryAnswers sampleHost.toHost (winningRun win) (intruding key))
      ((signalActionResult (intrusion key).reference "approve" (reviewInstance.wonBy win)
        (replayOf ((runFrom (advance sampleHost.toHost) .fresh (winningRun win)).world.resolutionKeys
          (reviewInstance.id ++ "\x00" ++ key)) "approve")).mapError .failed) := by
  simp only [recordsWin, Bool.and_eq_true, Option.isNone_iff_eq_none, List.isEmpty_iff, decide_eq_true_eq]
    at records
  obtain ⟨⟨⟨idle, empty⟩, held⟩, _⟩ := records
  refine mayEnd_bind.mpr ⟨.ok (some (reviewInstance.wonBy win)),
    mayEnd_read.mpr ⟨.ok (some (reviewInstance.wonBy win)), ⟨[], List.nil_prefix, ?_⟩, rfl⟩, ?_⟩
  · rw [List.append_nil]
    exact congrArg _ held.symm
  refine mayEnd_bind.mpr ⟨.ok ⟨"{}"⟩, mayEnd_check.mpr rfl, ?_⟩
  refine mayEnd_bind.mpr ⟨.ok (reviewInstance.wonBy win, _), mayEnd_resolve.mpr
    ⟨.ok (reviewInstance.wonBy win, _), memoryAnswers_resolve idle empty held rfl, rfl⟩, ?_⟩
  exact mayEnd_check.mpr rfl

private theorem intrusion_told (approves : win.action = "approve")
    (records : recordsWin win (runFrom (advance sampleHost.toHost) .fresh (winningRun win)) = true) :
    (act sampleHost.toHost (intrusion win.key)).MayEnd
      (MemoryAnswers sampleHost.toHost (winningRun win) (intruding win.key))
      (.ok (.resolved (.resolved "approve" win.input win.actor win.receipt win.decidedAt
        (signalReference reviewInstance)) win.receipt)) := by
  have ended := intrusion_ends win win.key records
  simp only [recordsWin, Bool.and_eq_true, decide_eq_true_eq, approves] at records
  rw [records.2] at ended
  unfold StoredInstance.wonBy Win.terminal at ended
  rw [approves] at ended
  exact ended

private theorem winningRun_collisionless :
    Collisionless sampleHost.toHost (submittedKeys (winningRun win ++ intruding key)) := by
  refine sample_collisionless.mono ?_
  rintro _ ⟨_, member, issued⟩
  simp only [winningRun, intruding, mem_append, mem_cons, not_mem_nil, or_false,
    DeskEvent.submit.injEq, reduceCtorEq, false_or] at member
  rcases member with (rfl | rfl) | rfl
  · exact issued
  · cases issued
  · cases issued

private theorem winningRun_after
    (records : recordsWin win (runFrom (advance sampleHost.toHost) .fresh (winningRun win)) = true) :
    AfterWin sampleHost reviewInstance win (MemoryAnswers sampleHost.toHost (winningRun win) (intruding key)) := by
  simp only [recordsWin, Bool.and_eq_true, Option.isNone_iff_eq_none, List.isEmpty_iff, decide_eq_true_eq]
    at records
  obtain ⟨⟨_, held⟩, recorded⟩ := records
  refine .memory _ _ (winningRun_collisionless win key) ⟨held, ?_⟩
  rw [recorded_text held]
  exact recorded

/-- Under a key of their own the other actor learns nothing. -/
theorem a_stranger_with_another_key_learns_nothing : ∃ value other,
    (Actions.act sampleHost.toHost (intrusion "other")).MayEnd (MemoryAnswers sampleHost.toHost
      (winningRun (approvedBy "ada" "fine")) (intruding "other")) (.ok value) ∧
    (Actions.act sampleHost.toHost (intrusion "other")).MayEnd (MemoryAnswers sampleHost.toHost
      (winningRun (approvedBy "bob" "at last")) (intruding "other")) (.ok other) ∧ value = other := by
  have one := winningRun_after (approvedBy "ada" "fine") "other" (by decide +kernel)
  have two := winningRun_after (approvedBy "bob" "at last") "other" (by decide +kernel)
  have ended := intrusion_ends (approvedBy "ada" "fine") "other" (by decide +kernel)
  have also := intrusion_ends (approvedBy "bob" "at last") "other" (by decide +kernel)
  rw [show MemoryStore.resolutionKeys _ _ = none by decide +kernel] at ended also
  have tells := (losing_attempts_tell_nothing (by rfl) (by rfl) one two).1
  exact ⟨_, _, ended, also, (tells (intrusion "other") _ _ rfl ended also).mpr (.inl (by decide))⟩

theorem a_stranger_with_the_key_learns_the_decision : ∃ value other,
    (Actions.act sampleHost.toHost (intrusion "approval")).MayEnd (MemoryAnswers sampleHost.toHost
      (winningRun (approvedBy "ada" "fine")) (intruding "approval")) (.ok value) ∧
    (Actions.act sampleHost.toHost (intrusion "approval")).MayEnd (MemoryAnswers sampleHost.toHost
      (winningRun (approvedBy "bob" "at last")) (intruding "approval")) (.ok other) ∧
    (intrusion "approval").actor ≠ (approvedBy "ada" "fine").actor ∧
    (intrusion "approval").actor ≠ (approvedBy "bob" "at last").actor ∧
    (approvedBy "ada" "fine").decidedAt = (approvedBy "bob" "at last").decidedAt ∧ value ≠ other := by
  refine ⟨.resolved (.resolved "approve" ⟨"fine"⟩ { id := "ada" } ⟨"receipt:ada"⟩ "2026-07-29T00:30:00.000Z"
      (signalReference reviewInstance)) ⟨"receipt:ada"⟩,
    .resolved (.resolved "approve" ⟨"at last"⟩ { id := "bob" } ⟨"receipt:bob"⟩ "2026-07-29T00:30:00.000Z"
      (signalReference reviewInstance)) ⟨"receipt:bob"⟩, ?_, ?_, by decide, by decide, rfl, by decide⟩
  · exact intrusion_told (approvedBy "ada" "fine") rfl (by decide +kernel)
  · exact intrusion_told (approvedBy "bob" "at last") rfl (by decide +kernel)

end Applik8s.Signals
