import Applik8s.Tasks.Operations

/-! Calls of one task may be taken for one another. The id of a published command leaves out its target and
its input, and the scope of its result leaves out its input; where calls that share either also agree on
the rest, each of them gets what it asked for. -/
namespace Applik8s.Tasks
open Function (update_self update_of_ne)
open Lib List Option
variable {runtime : Runtime} {world world' : World} {call : Call} {resolved : Resolved}
  {envelope : Envelope} {asked : Call → Prop}

section
variable (runtime : Runtime)

/-- Every output that a caller received is that of a command executed for its target, on its input; and
one id is that of one command. -/
structure World.Unconflated (world : World) : Prop where
  received : ∀ received ∈ world.received, ∃ execution,
    world.results received.1.command.databaseUrl (received.1.scope runtime) = some execution ∧
      execution.result = ⟨received.2, none⟩ ∧ execution.envelope.payload = received.1.input ∧
      execution.model = received.1.command.model ∧ execution.envelope.routing.targetKey = received.1.targetKey
  published : ∀ first ∈ world.published, ∀ second ∈ world.published, first.id = second.id →
    first.routing = second.routing ∧ first.payload = second.payload

def idText (call : Call) (resolved : Resolved) : String :=
  commandText call.invocation.invocationId call.alias resolved.idempotencyKey

def scopeParts (resolved : Resolved) : List String :=
  [resolved.command.bindingId, resolved.command.model, resolved.targetKey, resolved.idempotencyKey,
    resolved.context.digest]

/-- The digests tell these calls apart as the hashed texts do. -/
structure Distinguishes (asked : Call → Prop) : Prop where
  ids : ∀ one two resolved resolved', asked one → asked two → resolve runtime one = .ok resolved →
    resolve runtime two = .ok resolved' → resolved.commandId runtime one = resolved'.commandId runtime two →
    idText one resolved = idText two resolved'
  scopes : ∀ one two resolved resolved', asked one → asked two → resolve runtime one = .ok resolved →
    resolve runtime two = .ok resolved' → resolved.scope runtime = resolved'.scope runtime →
    scopeParts resolved = scopeParts resolved'

/-- Calls of one alias and one key in an invocation are for one target, and calls for one target with one
key and context have one input. -/
structure Compatible (asked : Call → Prop) : Prop where
  ids : ∀ one two resolved resolved', asked one → asked two → resolve runtime one = .ok resolved →
    resolve runtime two = .ok resolved' → idText one resolved = idText two resolved' →
    resolved.command.bindingId = resolved'.command.bindingId ∧ resolved.targetKey = resolved'.targetKey ∧
      resolved.idempotencyKey = resolved'.idempotencyKey ∧ resolved.input = resolved'.input
  scopes : ∀ one two resolved resolved', asked one → asked two → resolve runtime one = .ok resolved →
    resolve runtime two = .ok resolved' → scopeParts resolved = scopeParts resolved' →
    resolved.input = resolved'.input

def Begins (events : List Event) (call : Call) : Prop := ∃ caller, .start caller (.invoke call) ∈ events

end

theorem splitVersion_some {id : String} (split_ : splitVersion id = some contract) :
    id.toList = contract.1.toList ++ '.' :: contract.2.toList := by
  unfold splitVersion at split_
  dsimp only at split_
  have parts := takeWhile_append_dropWhile (p := fun c => decide (c ≠ '.')) (l := id.toList.reverse)
  split at split_
  · next name first rest rest_ version =>
    split at split_
    · cases split_
      have whole := congrArg List.reverse parts
      rw [reverse_append, reverse_reverse, rest_] at whole
      simpa using whole.symm
    · cases split_
  · cases split_

theorem splitVersion_inj (first : splitVersion one = some contract) (second : splitVersion two = some contract)
    : one = two :=
  String.toList_injective ((splitVersion_some first).trans (splitVersion_some second).symm)

theorem findCommand_mem (found : findCommand runtime name binding = .ok cmd) : cmd ∈ runtime.commands := by
  unfold findCommand at found
  split at found
  · next other is =>
    cases found
    exact mem_of_find?_eq_some is
  · cases found

theorem bindAlias_mem (bound : bindAlias runtime call = .ok (binding, cmd)) : cmd ∈ runtime.commands := by
  unfold bindAlias at bound
  obtain ⟨_, -, bound⟩ := bind_ok bound
  split at bound
  · obtain ⟨_, found, bound⟩ := bind_ok bound
    cases bound
    exact findCommand_mem found
  · cases bound

theorem resolve_mem (done : resolve runtime call = .ok resolved) : resolved.command ∈ runtime.commands := by
  unfold resolve at done
  cases ctx : bindContext runtime call with
  | error => rw [ctx] at done; cases done
  | ok =>
    rw [ctx] at done
    cases bound : bindAlias runtime call with
    | error => rw [bound] at done; cases done
    | ok found =>
      obtain ⟨binding, cmd⟩ := found
      rw [bound] at done
      change (completeInput call binding >>= _) = _ at done
      cases complete : completeInput call binding with
      | error => rw [complete] at done; cases done
      | ok input =>
        rw [complete] at done
        change (validateInput runtime cmd input >>= _) = _ at done
        cases valid : validateInput runtime cmd input with
        | error => rw [valid] at done; cases done
        | ok input =>
          rw [valid] at done
          change (if _ then _ else _) = _ at done
          split at done
          · cases done
          · cases done
            exact bindAlias_mem bound

section
inductive Stage where
  | waiting
  | read (databaseUrl scope : String) (result : Result)

variable (runtime : Runtime)

def IssuedBy (call : Call) (envelope : Envelope) : Prop :=
  ∃ resolved contract now receipt, resolve runtime call = .ok resolved ∧
    splitVersion resolved.command.id = some contract ∧
    envelope = resolved.envelope runtime call contract now receipt

def permits : Operation × Stage → Request → Prop
  | (operation, _), .publish envelope => ∃ call, operation = .invoke call ∧ IssuedBy runtime call envelope
  | (operation, stage), .receive resolved output => ∃ call, operation = .invoke call ∧
      resolve runtime call = .ok resolved ∧
      stage = .read resolved.command.databaseUrl (resolved.scope runtime) ⟨output, none⟩
  | _, _ => True

def afterwards : Operation × Stage → (request : Request) → request.Reply → Operation × Stage
  | (operation, _), .select databaseUrl scope, .ok (some result) => (operation, .read databaseUrl scope result)
  | phase, _, _ => phase

def conduct : Conduct Task (Operation × Stage) where
  permits := permits runtime
  answers _ _ := True
  after := afterwards

variable {runtime} {operation : Operation}

theorem obeys_throwIfAborted :
    Obeys (conduct runtime) (fun phase _ => phase = (op, stage)) (op, stage) throwIfAborted := by
  refine ⟨trivial, fun aborted _ => ?_⟩
  cases aborted <;> rfl

theorem obeys_receiptOf : Obeys (conduct runtime) (fun phase _ => phase = (op, stage)) (op, stage)
      (receiptOf runtime call resolved) := by
  unfold receiptOf
  split
  · refine ⟨trivial, ?_⟩
    rintro (_ | _ | ⟨_, _⟩) - <;> rfl
  · split
    · refine ⟨trivial, ?_⟩
      rintro (_ | _ | ⟨_, _⟩) - <;> rfl
    · rfl
  · rfl

theorem obeys_readResult {next : TaskProgram Json}
    (rest : Obeys (conduct runtime) (fun phase out => match out with
      | .ok output => phase = (op, .read resolved.command.databaseUrl (resolved.scope runtime) ⟨output, none⟩)
      | .error _ => True) (op, .waiting) next) :
    Obeys (conduct runtime) (fun phase out => match out with
      | .ok output => phase = (op, .read resolved.command.databaseUrl (resolved.scope runtime) ⟨output, none⟩)
      | .error _ => True) (op, .waiting) (readResult runtime resolved next) := by
  refine obeys_bind.mpr (obeys_throwIfAborted.weaken ?_)
  rintro _ (err | _) rfl
  · trivial
  refine ⟨trivial, ?_⟩
  rintro (_ | _ | ⟨_, _ | _⟩) -
  · trivial
  · exact rest
  · rfl
  · trivial

theorem obeys_poll (rounds : Nat) : Obeys (conduct runtime) (fun phase out => match out with
      | .ok output => phase = (op, .read resolved.command.databaseUrl (resolved.scope runtime) ⟨output, none⟩)
      | .error _ => True) (op, .waiting) (poll runtime resolved rounds) := by
  induction rounds with
  | zero => exact obeys_readResult trivial
  | succ rounds ih =>
    refine obeys_readResult ⟨trivial, ?_⟩
    rintro (_ | _) -
    · trivial
    · exact ih

theorem conducted (op : Operation) : Obeys (conduct runtime) (fun _ _ => True) (op, .waiting) (op.body runtime) := by
  cases op with
  | execute => exact ⟨trivial, fun _ _ => trivial⟩
  | invoke call =>
    refine obeys_bind.mpr (obeys_throwIfAborted.weaken ?_)
    rintro phase (err | _) rfl
    · trivial
    cases done : resolve runtime call with
    | error => trivial
    | ok resolved =>
      change Obeys _ _ _ (receiptOf runtime call resolved >>= _)
      refine obeys_bind.mpr (obeys_receiptOf.weaken ?_)
      rintro phase (err | receipt) rfl
      · trivial
      refine ⟨trivial, ?_⟩
      rintro (err | _) -
      · trivial
      cases versioned : splitVersion resolved.command.id with
      | none =>
        rw [commandContract, versioned]
        trivial
      | some contract =>
        rw [commandContract, versioned]
        refine ⟨trivial, fun now _ => ⟨⟨call, rfl, resolved, contract, now, receipt, done, versioned, rfl⟩, ?_⟩⟩
        rintro (err | _) -
        · trivial
        unfold waitForResult
        split
        · trivial
        refine ⟨trivial, fun rounds _ => obeys_bind.mpr ((obeys_poll rounds).weaken ?_)⟩
        rintro _ (_ | _) closed
        · trivial
        · obtain rfl := closed
          exact ⟨⟨call, rfl, done, rfl⟩, fun _ _ => trivial⟩

end

section
variable (runtime : Runtime) (asked : Call → Prop)

/-- What was published was asked for, and results are those of published commands in the scope these name. -/
structure World.Sound (world : World) : Prop where
  published : ∀ envelope ∈ world.published, ∃ call, asked call ∧ IssuedBy runtime call envelope
  log : ∀ envelope ∈ world.log, envelope ∈ world.published
  results : ∀ databaseUrl scope execution, world.results databaseUrl scope = some execution →
    execution.envelope ∈ world.published ∧ ∃ command ∈ runtime.commands,
      splitVersion command.id = some execution.envelope.contract ∧ execution.model = command.model ∧
        scope = commandScope runtime command execution.envelope
  received : ∀ received ∈ world.received, ∃ call, asked call ∧ resolve runtime call = .ok received.1 ∧
    ∃ execution, world.results received.1.command.databaseUrl (received.1.scope runtime) = some execution ∧
      execution.result = ⟨received.2, none⟩

def Stage.Held (world : World) : Stage → Prop
  | .waiting => True
  | .read databaseUrl scope result => ∃ execution,
      world.results databaseUrl scope = some execution ∧ execution.result = result

structure Knows (world : World) (operation : Operation) (phase : Operation × Stage) : Prop where
  same : phase.1 = operation
  asked : ∀ call, operation = .invoke call → asked call
  held : phase.2.Held world

def World.Follows (world world' : World) : Prop :=
  ∀ databaseUrl scope execution, world.results databaseUrl scope = some execution →
    world'.results databaseUrl scope = some execution

def Admitted (_ : System) (event : Event) : Prop :=
  ∀ caller call, event = .start caller (.invoke call) → asked call

variable {runtime asked}

theorem Knows.follows (knows : Knows asked world op phase) (follows : world.Follows world') :
    Knows asked world' op phase := by
  refine { knows with held := ?_ }
  obtain ⟨-, -, held⟩ := knows
  revert held
  cases phase.2 with
  | waiting => exact id
  | read =>
    rintro ⟨execution, here, same⟩
    exact ⟨execution, follows _ _ _ here, same⟩

theorem World.Sound.publish (sound : world.Sound runtime asked) {call : Call} (wanted : asked call)
    (issued : IssuedBy runtime call envelope) : (world.publish envelope).Sound runtime asked where
  published other among := by
    rcases mem_append.mp among with before | last
    · exact sound.published other before
    · obtain rfl := mem_singleton.mp last
      exact ⟨call, wanted, issued⟩
  log other among := by
    unfold World.publish at among ⊢
    split at among
    · exact mem_append_left _ (sound.log other among)
    rcases mem_append.mp among with before | last
    · exact mem_append_left _ (sound.log other before)
    · exact mem_append_right _ last
  results databaseUrl scope execution here :=
    have ⟨among, rest⟩ := sound.results databaseUrl scope execution here
    ⟨mem_append_left _ among, rest⟩
  received := sound.received

theorem World.Sound.execute (sound : world.Sound runtime asked) (pos : Nat) (res : Result) :
    (world.execute runtime pos res).Sound runtime asked ∧
      world.Follows (world.execute runtime pos res) := by
  unfold World.execute
  split
  · exact ⟨sound, fun _ _ _ => id⟩
  next envelope here =>
  split
  · exact ⟨sound, fun _ _ _ => id⟩
  next cmd found =>
  dsimp only
  split
  · exact ⟨sound, fun _ _ _ => id⟩
  next free =>
  simp only [Bool.or_eq_true, decide_eq_true_eq, not_or, not_not, Bool.not_eq_true,
    isSome_eq_false_iff, isNone_iff_eq_none] at free
  have follows : world.Follows { world with
      results := Function.update world.results cmd.databaseUrl
        (Function.update (world.results cmd.databaseUrl) (commandScope runtime cmd envelope)
          (some ⟨envelope, cmd.model, res⟩)) } := by
    intro databaseUrl scope execution before
    by_cases db : databaseUrl = cmd.databaseUrl
    · subst db
      dsimp only
      rw [update_self, update_of_ne, before]
      rintro rfl
      rw [free.2] at before
      cases before
    · exact (congrFun (update_of_ne db _ _) scope).trans before
  refine ⟨{ sound with results := ?_, received := ?_ }, follows⟩
  · intro databaseUrl scope execution after
    by_cases db : databaseUrl = cmd.databaseUrl
    · subst db
      dsimp only at after
      rw [update_self] at after
      by_cases same : scope = commandScope runtime cmd envelope
      · subst same
        rw [update_self] at after
        cases after
        refine ⟨sound.log envelope (mem_of_getElem? here), cmd, mem_of_find?_eq_some found, ?_, rfl, rfl⟩
        simpa using find?_some found
      · rw [update_of_ne same] at after
        exact sound.results _ _ _ after
    · dsimp only at after
      rw [update_of_ne db] at after
      exact sound.results _ _ _ after
  · intro received among
    obtain ⟨call, wanted, done, execution, before, same⟩ := sound.received received among
    exact ⟨call, wanted, done, execution, follows _ _ _ before, same⟩

theorem answer_sound (choice : Choice) (permitted : permits runtime phase req) (sound : world.Sound runtime asked)
    (knows : Knows asked world op phase) : (World.answer runtime req choice world).2.Sound runtime asked ∧
      world.Follows (World.answer runtime req choice world).2 ∧
      Knows asked (World.answer runtime req choice world).2 op
        (afterwards phase req (World.answer runtime req choice world).1) := by
  obtain ⟨_, _⟩ := phase
  obtain ⟨rfl, wanted, held⟩ := knows
  cases req with
  | publish =>
    obtain ⟨call, is, issued⟩ := permitted
    simp only [World.answer]
    cases choice.takes with
    | false => exact ⟨sound, fun _ _ _ => id, rfl, wanted, held⟩
    | true => exact ⟨sound.publish (wanted call is) issued, fun _ _ _ => id, rfl, wanted, held⟩
  | select databaseUrl scope =>
    refine ⟨sound, fun _ _ _ => id, ?_⟩
    simp only [World.answer]
    split
    · cases here : world.results databaseUrl scope with
      | none => exact ⟨rfl, wanted, held⟩
      | some execution => exact ⟨rfl, wanted, execution, here, rfl⟩
    · exact ⟨rfl, wanted, held⟩
  | receive =>
    obtain ⟨call, is, done, rfl⟩ := permitted
    refine ⟨{ sound with received := ?_ }, fun _ _ _ => id, rfl, wanted, held⟩
    intro received among
    rcases mem_append.mp among with before | last
    · exact sound.received received before
    · obtain rfl := mem_singleton.mp last
      exact ⟨call, wanted call is, done, held⟩
  | execute pos =>
    have ⟨kept, follows⟩ := sound.execute pos choice.result
    exact ⟨kept, follows, Knows.follows ⟨rfl, wanted, held⟩ follows⟩
  | _ => exact ⟨sound, fun _ _ _ => id, rfl, wanted, held⟩

theorem keeps (runtime : Runtime) (asked : Call → Prop) :
    Crowd.Keeps (server runtime) (Operation.body runtime) (conduct runtime)
      (Pointwise (World.Sound runtime asked) (Knows asked)) (Admitted asked)
      fun op => (op, .waiting) :=
  Crowd.keeps_pointwise World.Follows conducted
    (fun _ caller _ admitted _ => ⟨rfl, fun call is => admitted caller call (by rw [is]), trivial⟩)
    (fun _ _ _ _ knows follows => knows.follows follows)
    fun _ _ choice _ _ _ _ _ _ sound knows permitted => ⟨trivial, answer_sound choice permitted sound knows⟩

theorem IssuedBy.command {cmd : Command} (issued : IssuedBy runtime call envelope)
    (among : cmd ∈ runtime.commands) (versioned : splitVersion cmd.id = some envelope.contract) :
    ∃ resolved contract now receipt, resolve runtime call = .ok resolved ∧ cmd = resolved.command ∧
      envelope = resolved.envelope runtime call contract now receipt := by
  obtain ⟨resolved, contract, now, receipt, done, versioned', rfl⟩ := issued
  exact ⟨resolved, contract, now, receipt, done, inj_on_of_nodup_map runtime.distinct among
    (resolve_mem done) (splitVersion_inj versioned versioned'), rfl⟩

theorem World.Sound.unconflated (sound : world.Sound runtime asked) (distinguishes : Distinguishes runtime asked)
    (compatible : Compatible runtime asked) : world.Unconflated runtime where
  received received among := by
    obtain ⟨call, wanted, done, execution, here, same⟩ := sound.received received among
    obtain ⟨published, cmd, listed, versioned, model, scope⟩ := sound.results _ _ _ here
    obtain ⟨_, wanted', issued⟩ := sound.published _ published
    obtain ⟨resolved, contract, now, receipt, done', rfl, is⟩ := issued.command listed versioned
    rw [is] at scope
    have parts := distinguishes.scopes _ _ _ _ wanted wanted' done done' scope
    have input := compatible.scopes _ _ _ _ wanted wanted' done done' parts
    simp only [scopeParts, cons.injEq, and_true] at parts
    obtain ⟨-, models, targets, -⟩ := parts
    refine ⟨execution, here, same, ?_, model.trans models.symm, ?_⟩
    · rw [is, input]
      rfl
    · rw [is, targets]
      rfl
  published first one second two same := by
    obtain ⟨_, wanted, _, _, _, _, done, -, rfl⟩ := sound.published first one
    obtain ⟨_, wanted', _, _, _, _, done', -, rfl⟩ := sound.published second two
    have text := distinguishes.ids _ _ _ _ wanted wanted' done done' same
    obtain ⟨binding, target, key, input⟩ := compatible.ids _ _ _ _ wanted wanted' done done' text
    refine ⟨?_, input⟩
    simp [Resolved.envelope, binding, target, key]

private def hex : String := String.ofList (List.replicate 64 'a')

private def update : Command where
  id := "Post.update.v1"
  bindingId := "Post.update"
  model := "Post"
  inputSchema := .object []
  databaseUrl := "postgres://posts"
  key
    | .object (("id", .string id) :: _) => .scalar id
    | _ => .scalar ""
  idempotencyKey := none

private def posts : Runtime where
  dates := utcDates
  sha256 := id
  stringify := join ","
  stableJson _ := ""
  encodeURIComponent := id
  localeBefore := stringLess
  validate _ input := .ok input
  contextValues _ values := values
  contextDigest _ := hex
  changeScopes _ := [("global", hex)]
  commands := [update]
  distinct := nodup_singleton _
  authorizesExecution := false
  authorizesOperation := false
  resultTimeoutMs := 120000

private def updateOf (body : String) : Call where
  aliases := [("update", .plain "Post.update.v1")]
  principal := ⟨"bot", "1", "1", none⟩
  invocation := ⟨"run", "run", none, none, none, none, none⟩
  source := .object []
  «alias» := "update"
  input := [("id", .string "post"), ("body", .string body)]
  options := {}

private def answering (text : String) : Choice :=
  ⟨0, false, true, true, .denied "" "", 3, ⟨.string text, none⟩⟩

private def callAnd (caller : Nat) (body text : String) : List Event :=
  .start caller (.invoke (updateOf body)) :: List.replicate 4 (.step caller (answering text)) ++
    [.start 9 (.execute 0), .step 9 (answering text), .stop 9] ++
    List.replicate 5 (.step caller (answering text))

private def twice : World :=
  (runFrom (next posts) idle (callAnd 0 "first" "saved first" ++ callAnd 1 "second" "saved second")).world

private def published (body : String) : Envelope where
  id := "task:" ++ commandText "run" "update" "run:update"
  contract := ("Post.update", "v1")
  payload := .object (updateOf body).input
  recordedAt := utcDates.toISOString 0
  correlationId := "run"
  causationId := none
  traceparent := none
  partitionKey := "post"
  routing := ⟨"Post.update", "post", "run:update"⟩
  expectedRevision := none
  authorizationReceipt := none
  trustedContext := ⟨.object [], hex, [("global", hex)]⟩

end
end Applik8s.Tasks
