import Applik8s.Identity.ConsentProofs

/-! Any number of decisions and cancellations of any flows at once. Each holds a version of its flow that
the stored one has followed from; a write on it succeeds only where nothing has followed yet. -/
namespace Applik8s.Identity
open Function (update update_of_ne update_self)
open Lib List
open Program (check exec)
variable {runtime : Runtime} {world world' : World} {flow later stored : OAuthFlow}
  {decision : Decision} {input : ConsentDecision} {choice : Choice} {provider : ProviderDecision}

section
/-- Where a call is, and the version of the flow that it holds. -/
inductive Stage where
  | idle
  | seen (flow : OAuthFlow)
  | answered (flow : OAuthFlow) (provider : ProviderDecision)

/-- The flow with the first write of a decision, or with a cancellation. -/
def FirstWrite (operation : Operation) (flow next : OAuthFlow) : Prop :=
  (∃ input, operation = .decide input ∧
    next = { flow with state := input.decision.pending, version := flow.version + 1 }) ∨
  ∃ decidedAt, next = { flow with state := .cancelled, decidedAt, version := flow.version + 1 }

def OAuthFlow.DecidedAs (flow : OAuthFlow) (decision : Decision) : Prop :=
  flow.state ∈ [decision.pending, decision.terminal]

def permits (runtime : Runtime) (operation : Operation) : Stage → Request → Prop
  | .idle, .clock | .idle, .get _ | .seen _, .clock | .answered _ _, .clock => True
  | .seen flow, .replace next expectedVersion =>
    expectedVersion = flow.version ∧ flow.state = .active ∧ FirstWrite operation flow next
  | .seen flow, .decide asked decision key => asked = flow ∧ flow.DecidedAs decision ∧
      key = consentKey runtime flow.id decision ∧ ∃ input, operation = .decide input ∧
        input.decision = decision ∧ Matches runtime flow input.binding input.principal
  | .answered flow provider, .replace next expectedVersion => expectedVersion = flow.version ∧
      ∃ input, operation = .decide input ∧ flow.state = input.decision.pending ∧
        assertProviderDecision runtime flow input.decision provider = .ok () ∧ ∃ decidedAt,
          next = { flow with
            state := input.decision.terminal, decidedAt
            providerDecisionId := some provider.id, version := flow.version + 1 }
  | .answered flow provider, .receive decision received answer => received = flow ∧ answer = provider ∧
      flow.state = decision.terminal ∧ ∃ input, operation = .decide input ∧ input.decision = decision
  | _, _ => False

def afterwards : Stage → (request : Request) → request.Reply → Stage
  | .idle, .get _, .ok (some flow) => .seen flow
  | .seen _, .replace _ _, .ok next => .seen next
  | .seen flow, .decide _ _ _, .ok provider => .answered flow provider
  | .answered _ provider, .replace _ _, .ok next => .answered next provider
  | stage, _, _ => stage

def answers : (request : Request) → request.Reply → Prop
  | .replace flow _, .ok next => next = flow
  | _, _ => True

def conduct (runtime : Runtime) : Conduct Consent (Operation × Stage) where
  permits phase request := permits runtime phase.1 phase.2 request
  answers := answers
  after phase request reply := (phase.1, afterwards phase.2 request reply)

variable {operation : Operation}

theorem obeys_readBoundFlow {flowId : String} {binding : Binding} {principal : Principal} {allowed : List FlowState} :
    Obeys (conduct runtime) (fun phase res => match res with
      | .ok flow => phase = (op, .seen flow) ∧ flow.state ∈ allowed ∧ Matches runtime flow binding principal
      | .error _ => True) (op, .idle) (readBoundFlow runtime flowId binding principal allowed) := by
  refine ⟨trivial, fun now _ => ?_⟩
  change Obeys _ _ _ (check (assertResourceOwner runtime principal now) >>= _)
  cases assertResourceOwner runtime principal now with
  | error => trivial
  | ok _ =>
    cases requiredString flowId "flowId" with
    | error => trivial
    | ok flowId =>
      refine ⟨trivial, fun reply _ => ?_⟩
      cases reply with
      | error => trivial
      | ok read =>
        change Obeys _ _ _ (check _)
        rw [obeys_check]
        cases bound : boundFlow runtime binding principal allowed now read with
        | error => trivial
        | ok flow =>
          obtain ⟨rfl, state, matches_⟩ := boundFlow_ok bound
          exact ⟨rfl, state, matches_⟩

theorem obeys_decideHeld (decided : flow.DecidedAs input.decision)
    (matches_ : Matches runtime flow input.binding input.principal) :
    Obeys (conduct runtime) (fun phase res => match res with
      | .ok (flow, provider) => phase = (.decide input, .answered flow provider) ∧
          flow.state = input.decision.terminal
      | .error _ => True) (.decide input, .seen flow) (decideHeld runtime input.decision flow) := by
  unfold decideHeld
  split
  · trivial
  refine ⟨⟨rfl, decided, rfl, input, rfl, rfl, matches_⟩, fun reply _ => ?_⟩
  cases reply with
  | error => trivial
  | ok provider =>
    change Obeys _ _ _ (check (assertProviderDecision runtime flow input.decision provider) >>= _)
    cases asserted : assertProviderDecision runtime flow input.decision provider with
    | error => trivial
    | ok _ =>
      split
      · next terminal => exact ⟨rfl, terminal⟩
      next other =>
      have pending : flow.state = input.decision.pending := by
        simpa [OAuthFlow.DecidedAs, other] using decided
      refine ⟨trivial, fun decidedAt _ => ⟨⟨rfl, input, rfl, pending, asserted, _, rfl⟩, ?_⟩⟩
      intro reply written
      cases reply with
      | error => trivial
      | ok next =>
        obtain rfl := written
        exact ⟨rfl, rfl⟩

theorem obeys_decide (input : ConsentDecision) : Obeys (conduct runtime) (fun phase res => match res with
      | .ok (flow, provider) => phase = (.decide input, .answered flow provider) ∧
          flow.state = input.decision.terminal
      | .error _ => True) (.decide input, .idle) (decide runtime input) := by
  refine obeys_bind.mpr (obeys_readBoundFlow.weaken ?_)
  rintro _ (_ | _) closed
  · trivial
  obtain ⟨rfl, state, matches_⟩ := closed
  dsimp only
  split
  · next active =>
    refine ⟨⟨rfl, active, .inl ⟨input, rfl, rfl⟩⟩, fun reply written => ?_⟩
    cases reply with
    | error => trivial
    | ok next =>
      obtain rfl := written
      exact obeys_decideHeld (by simp [OAuthFlow.DecidedAs]) ⟨matches_.browser, matches_.csrf, matches_.owner,
        matches_.identity, matches_.session, matches_.authority⟩
  · next other =>
    refine obeys_decideHeld ?_ matches_
    simpa [OAuthFlow.DecidedAs, other] using state

theorem conducted (op : Operation) : Obeys (conduct runtime) (fun _ _ => True) (op, .idle) (op.body runtime) := by
  cases op with
  | decide input =>
    refine obeys_bind.mpr ((obeys_decide input).weaken ?_)
    rintro phase (err | ⟨flow, _⟩) closed
    · trivial
    · obtain ⟨rfl, terminal⟩ := closed
      exact ⟨⟨rfl, rfl, terminal, input, rfl, rfl⟩, fun _ _ => trivial⟩
  | cancel =>
    refine obeys_bind.mpr (obeys_bind.mpr (obeys_readBoundFlow.weaken ?_))
    rintro _ (err | _) closed
    · trivial
    obtain ⟨rfl, state, -⟩ := closed
    refine ⟨trivial, fun decidedAt _ => ⟨⟨rfl, by simpa using state, .inr ⟨_, rfl⟩⟩, ?_⟩⟩
    rintro (_ | _) - <;> trivial

end

section
variable (runtime : Runtime) (world : World)

/-- The provider was asked only for what the flow says, a flow that is decided has its answer, and what
callers received is what is stored. -/
structure World.Sound : Prop where
  ids : ∀ id flow, world.flows id = some flow → flow.id = id
  asked : ∀ asked ∈ world.asked, ∃ flow, world.flows asked.flowId = some flow ∧ flow.DecidedAs asked.decision
  terminal : ∀ id flow decision, world.flows id = some flow → flow.state = decision.terminal →
    ∃ provider, world.Answered runtime flow decision provider ∧ flow.providerDecisionId = some provider.id
  received : ∀ received ∈ world.received, world.flows received.2.1.id = some received.2.1 ∧
    received.2.1.state = received.1.terminal ∧
      world.remembered (consentKey runtime received.2.1.id received.1) = some received.2.2

def World.Holds (flow : OAuthFlow) : Prop := ∃ stored, world.flows flow.id = some stored ∧ flow.Leads stored

def Agrees : Operation × Stage → Prop
  | (_, .idle) => True
  | (_, .seen flow) => world.Holds flow
  | (operation, .answered flow provider) => world.Holds flow ∧ ∃ input, operation = .decide input ∧
      flow.DecidedAs input.decision ∧ ⟨flow.id, input.decision⟩ ∈ world.asked ∧
        world.remembered (consentKey runtime flow.id input.decision) = some provider

structure World.Follows (world world' : World) : Prop where
  flows : ∀ id flow, world.flows id = some flow → ∃ later, world'.flows id = some later ∧ flow.Leads later
  remembered : ∀ key provider, world.remembered key = some provider → world'.remembered key = some provider
  asked : ∀ asked ∈ world.asked, asked ∈ world'.asked

variable {runtime world} {phase : Operation × Stage}

theorem World.Follows.refl (world : World) : world.Follows world :=
  ⟨fun _ flow here => ⟨flow, here, .refl flow⟩, fun _ _ => id, fun _ => id⟩

theorem World.Follows.holds (follows : world.Follows world') (holds : world.Holds flow) : world'.Holds flow := by
  obtain ⟨_, here, leads⟩ := holds
  obtain ⟨later, there, leads'⟩ := follows.flows _ _ here
  exact ⟨later, there, leads.trans leads'⟩

theorem Agrees.follows (agrees : Agrees runtime world phase) (follows : world.Follows world') :
    Agrees runtime world' phase := by
  obtain ⟨_, stage⟩ := phase
  cases stage with
  | idle => trivial
  | seen flow => exact follows.holds agrees
  | answered =>
    obtain ⟨holds, input, rfl, decided, asked, remembered⟩ := agrees
    exact ⟨follows.holds holds, input, rfl, decided, follows.asked _ asked, follows.remembered _ _ remembered⟩

end

section
variable {phase : Operation × Stage} {operation : Operation} {next : OAuthFlow}

theorem replace_ok (holds : world.Holds flow) (id : next.id = flow.id)
    (done : world.replace next flow.version = .ok world') : world.flows flow.id = some flow ∧
      world' = { world with flows := update world.flows flow.id (some next) } := by
  obtain ⟨_, here, leads⟩ := holds
  unfold World.replace at done
  rw [id, here] at done
  dsimp only at done
  split at done
  · cases done
  next same =>
  obtain rfl := leads.current (by simpa using Eq.symm (not_not.mp same))
  split at done
  · cases done
  · exact ⟨here, (Except.ok.inj done).symm⟩

namespace World

theorem Sound.write (sound : world.Sound runtime) (here : world.flows flow.id = some flow)
    (leads : flow.Leads next) (open_ : flow.state.final = false)
    (terminal : ∀ decision : Decision, next.state = decision.terminal →
      ∃ provider, world.Answered runtime next decision provider ∧
        next.providerDecisionId = some provider.id) :
    Sound runtime { world with flows := update world.flows flow.id (some next) } ∧
      world.Follows { world with flows := update world.flows flow.id (some next) } ∧
      Holds { world with flows := update world.flows flow.id (some next) } next := by
  have stays : ∀ id found, world.flows id = some found → ∃ later,
      update world.flows flow.id (some next) id = some later ∧ found.Leads later := by
    intro id found stored
    by_cases same : id = flow.id
    · subst same
      cases here.symm.trans stored
      exact ⟨next, update_self .., leads⟩
    · exact ⟨found, (update_of_ne same ..).trans stored, .refl found⟩
  have only : ∀ id found, update world.flows flow.id (some next) id = some found →
      id = flow.id ∧ found = next ∨ world.flows id = some found := by
    intro id found stored
    by_cases same : id = flow.id
    · subst same
      rw [update_self] at stored
      exact .inl ⟨rfl, (Option.some.inj stored).symm⟩
    · rw [update_of_ne same] at stored
      exact .inr stored
  refine ⟨⟨?_, ?_, ?_, ?_⟩, ⟨stays, fun _ _ => id, fun _ => id⟩, next, ?_, .refl next⟩
  · intro id found stored
    rcases only id found stored with ⟨rfl, rfl⟩ | before
    · exact leads.id
    · exact sound.ids id found before
  · intro asked among
    obtain ⟨found, stored, decided⟩ := sound.asked asked among
    obtain ⟨later, after, leads⟩ := stays _ _ stored
    exact ⟨later, after, Decision.course_of_state leads.course decided⟩
  · intro id found decision stored state
    rcases only id found stored with ⟨rfl, rfl⟩ | before
    · exact terminal decision state
    · exact sound.terminal id found decision before state
  · intro received among
    obtain ⟨stored, state, remembered⟩ := sound.received received among
    refine ⟨?_, state, remembered⟩
    have apart : received.2.1.id ≠ flow.id := by
      intro same
      rw [same, here] at stored
      cases stored
      rw [state, Decision.terminal_final] at open_
      cases open_
    exact (update_of_ne apart ..).trans stored
  · rw [leads.id]
    exact update_self ..

theorem Sound.firstWrite (sound : world.Sound runtime) (here : world.flows flow.id = some flow)
    (active : flow.state = .active) (write : FirstWrite op flow next) :
    Sound runtime { world with flows := update world.flows flow.id (some next) } ∧
      world.Follows { world with flows := update world.flows flow.id (some next) } ∧
      Holds { world with flows := update world.flows flow.id (some next) } next := by
  have open_ : flow.state.final = false := by rw [active]; rfl
  have course : ∀ state, flow.state.course state := by rw [active]; exact fun _ => rfl
  rcases write with ⟨input, -, rfl⟩ | ⟨_, rfl⟩
  · refine sound.write here (OAuthFlow.leads_next (course _) open_) open_ fun decision terminal => ?_
    revert terminal
    cases input.decision <;> cases decision <;> exact nofun
  · refine sound.write here (OAuthFlow.leads_next (course _) open_) open_ fun decision terminal => ?_
    revert terminal
    cases decision <;> exact nofun

theorem Sound.ask (sound : world.Sound runtime) (holds : world.Holds flow) (decided : flow.DecidedAs decision) :
    Sound runtime { world with asked := world.asked ++ [⟨flow.id, decision⟩] } ∧
      world.Follows { world with asked := world.asked ++ [⟨flow.id, decision⟩] } := by
  refine ⟨{ sound with asked := fun asked among => ?_, terminal := ?_ },
    { Follows.refl world with asked := fun _ => mem_append_left _ }⟩
  · rcases mem_append.mp among with before | last
    · exact sound.asked asked before
    · obtain rfl := mem_singleton.mp last
      obtain ⟨stored, here, leads⟩ := holds
      exact ⟨stored, here, Decision.course_of_state leads.course decided⟩
  · intro id found decision stored state
    obtain ⟨provider, ⟨remembered, asserted, asked⟩, same⟩ := sound.terminal id found decision stored state
    exact ⟨provider, ⟨remembered, asserted, mem_append_left _ asked⟩, same⟩

theorem Sound.remember (sound : world.Sound runtime) (key : String) (provider : ProviderDecision)
    (fits : ∀ before, world.remembered key = some before → before = provider) :
    Sound runtime { world with remembered := update world.remembered key (some provider) } ∧
      world.Follows { world with remembered := update world.remembered key (some provider) } := by
  have stays : ∀ other before, world.remembered other = some before →
      update world.remembered key (some provider) other = some before := by
    intro other before remembered
    by_cases same : other = key
    · subst same
      rw [update_self, fits before remembered]
    · rw [update_of_ne same, remembered]
  refine ⟨{ sound with terminal := ?_, received := ?_ }, { Follows.refl world with remembered := stays }⟩
  · intro id found decision stored state
    obtain ⟨provider, ⟨remembered, rest⟩, same⟩ := sound.terminal id found decision stored state
    exact ⟨provider, ⟨stays _ _ remembered, rest⟩, same⟩
  · intro received among
    obtain ⟨stored, state, remembered⟩ := sound.received received among
    exact ⟨stored, state, stays _ _ remembered⟩

end World

theorem answer_replace (choice : Choice) (holds : world.Holds flow) (id : next.id = flow.id) :
    (∃ err, World.answer (.replace next flow.version) choice world = (.error err, world)) ∨
      world.flows flow.id = some flow ∧ ∃ reply : Except Failure OAuthFlow,
        World.answer (.replace next flow.version) choice world =
          (reply, { world with flows := update world.flows flow.id (some next) }) ∧
        (reply = .ok next ∨ ∃ err, reply = .error err) := by
  simp only [World.answer]
  split
  · cases done : world.replace next flow.version with
    | error err => exact .inl ⟨err, rfl⟩
    | ok after =>
      obtain ⟨here, rfl⟩ := replace_ok holds id done
      refine .inr ⟨here, _, rfl, ?_⟩
      split
      · exact .inl rfl
      · exact .inr ⟨_, rfl⟩
  · exact .inl ⟨_, rfl⟩

theorem answer_decide (choice : Choice) (sound : world.Sound runtime) (holds : world.Holds flow)
    (decided : flow.DecidedAs decision) :
    let answer := World.answer (.decide flow decision (consentKey runtime flow.id decision)) choice world
    answer.2.Sound runtime ∧ world.Follows answer.2 ∧ ⟨flow.id, decision⟩ ∈ answer.2.asked ∧
      ∀ provider, answer.1 = .ok provider →
        answer.2.remembered (consentKey runtime flow.id decision) = some provider := by
  have asked := sound.ask holds decided
  have among : (⟨flow.id, decision⟩ : Ask) ∈ world.asked ++ [⟨flow.id, decision⟩] :=
    mem_append_right _ mem_cons_self
  simp only [World.answer]
  split
  · have remembered := asked.1.remember (consentKey runtime flow.id decision)
      ((world.remembered (consentKey runtime flow.id decision)).getD choice.provider) fun before is => by
        have is : world.remembered (consentKey runtime flow.id decision) = some before := is
        rw [is]
        rfl
    refine ⟨remembered.1, ?_, among, fun provider came => ?_⟩
    · exact ⟨fun id flow here => remembered.2.flows id flow here, remembered.2.remembered, asked.2.asked⟩
    split at came
    · cases came
      exact update_self ..
    · cases came
  · exact ⟨asked.1, asked.2, among, nofun⟩

theorem answer_sound (choice : Choice) {req : Request}
    (permitted : permits runtime phase.1 phase.2 req) (sound : world.Sound runtime)
    (agrees : Agrees runtime world phase) : answers req (World.answer req choice world).1 ∧
      (World.answer req choice world).2.Sound runtime ∧ world.Follows (World.answer req choice world).2 ∧
      Agrees runtime (World.answer req choice world).2
        (phase.1, afterwards phase.2 req (World.answer req choice world).1) := by
  obtain ⟨_, stage⟩ := phase
  cases stage with
  | idle =>
    cases req with
    | clock => exact ⟨trivial, sound, .refl world, trivial⟩
    | get flowId =>
      refine ⟨trivial, sound, .refl world, ?_⟩
      simp only [World.answer]
      split
      · cases found : world.flows flowId with
        | none => trivial
        | some flow => exact ⟨flow, by rw [sound.ids _ _ found, found], .refl flow⟩
      · trivial
    | _ => exact permitted.elim
  | seen flow =>
    cases req with
    | clock => exact ⟨trivial, sound, .refl world, agrees⟩
    | replace next =>
      obtain ⟨rfl, active, write⟩ := permitted
      have id : next.id = flow.id := by rcases write with ⟨_, -, rfl⟩ | ⟨_, rfl⟩ <;> rfl
      rcases answer_replace choice agrees id with ⟨err, is⟩ | ⟨here, reply, is, came⟩
      · rw [is]
        exact ⟨trivial, sound, .refl world, agrees⟩
      rw [is]
      obtain ⟨kept, follows, holds⟩ := sound.firstWrite here active write
      rcases came with rfl | ⟨err, rfl⟩
      · exact ⟨rfl, kept, follows, holds⟩
      · exact ⟨trivial, kept, follows, follows.holds agrees⟩
    | decide =>
      obtain ⟨rfl, decided, rfl, input, rfl, rfl, -⟩ := permitted
      obtain ⟨kept, follows, among, remembered⟩ := answer_decide choice sound agrees decided
      refine ⟨trivial, kept, follows, ?_⟩
      generalize came : World.answer _ choice world = answer at kept follows among remembered ⊢
      obtain ⟨reply, _⟩ := answer
      cases reply with
      | error => exact follows.holds agrees
      | ok provider => exact ⟨follows.holds agrees, input, rfl, decided, among, remembered provider rfl⟩
    | _ => exact permitted.elim
  | answered flow provider =>
    obtain ⟨holds, input, rfl, decided, asked, remembered⟩ := agrees
    cases req with
    | clock => exact ⟨trivial, sound, .refl world, holds, input, rfl, decided, asked, remembered⟩
    | replace =>
      obtain ⟨rfl, input', same, pending, asserted, decidedAt, rfl⟩ := permitted
      obtain rfl : input = input' := by cases same; rfl
      have leads : flow.Leads { flow with
          state := input.decision.terminal, decidedAt
          providerDecisionId := some provider.id, version := flow.version + 1 } :=
        OAuthFlow.leads_next (by rw [pending]; cases input.decision <;> rfl)
          (by rw [pending]; cases input.decision <;> rfl)
      rcases answer_replace choice holds leads.id with ⟨err, is⟩ | ⟨here, _, is, came⟩
      · rw [is]
        exact ⟨trivial, sound, .refl world, holds, input, rfl, decided, asked, remembered⟩
      rw [is]
      obtain ⟨kept, follows, holds'⟩ := sound.write here leads
        (by rw [pending]; cases input.decision <;> rfl) fun decision terminal => by
          obtain rfl : input.decision = decision := by
            revert terminal
            cases input.decision <;> cases decision <;> first | exact fun _ => rfl | exact nofun
          exact ⟨provider, ⟨remembered, asserted, asked⟩, rfl⟩
      rcases came with rfl | ⟨_, rfl⟩
      · exact ⟨rfl, kept, follows, holds', input, rfl, by simp [OAuthFlow.DecidedAs], asked, remembered⟩
      · exact ⟨trivial, kept, follows, follows.holds holds, input, rfl, decided, asked, remembered⟩
    | receive decision received answer =>
      obtain ⟨rfl, rfl, terminal, input', same, rfl⟩ := permitted
      obtain rfl : input = input' := by cases same; rfl
      have follows : world.Follows { world with
          received := world.received ++ [(input.decision, received, answer)] } :=
        ⟨(World.Follows.refl world).flows, fun _ _ => id, fun _ => id⟩
      refine ⟨trivial, { sound with received := fun res among => ?_ }, follows, holds, input, rfl, decided,
        asked, remembered⟩
      rcases mem_append.mp among with before | last
      · exact sound.received res before
      obtain rfl := mem_singleton.mp last
      obtain ⟨_, here, leads⟩ := holds
      obtain rfl := leads.final (by rw [terminal, Decision.terminal_final])
      exact ⟨here, terminal, remembered⟩
    | _ => exact permitted.elim

end

def Knows (runtime : Runtime) (world : World) (operation : Operation) (phase : Operation × Stage) : Prop :=
  phase.1 = operation ∧ Agrees runtime world phase

/-- The flows are sound, and every call is right about the one it holds. -/
abbrev Invariant (runtime : Runtime) : World → (Nat → Option (Operation × Operation × Stage)) → Prop :=
  Pointwise (World.Sound runtime) (Knows runtime)

theorem keeps (runtime : Runtime) : Crowd.Keeps server (Operation.body runtime) (conduct runtime)
    (Invariant runtime) (fun _ _ => True) fun op => (op, .idle) := by
  have start : ∀ (sys : System) (caller : Nat) (op : Operation), True →
      sys.world.Sound runtime → Knows runtime sys.world op (op, .idle) :=
    fun _ _ _ _ _ => ⟨rfl, trivial⟩
  have follow : ∀ (world world' : World) (op : Operation) (phase : Operation × Stage),
      Knows runtime world op phase → world.Follows world' → Knows runtime world' op phase :=
    fun _ _ _ _ knows follows => ⟨knows.1, knows.2.follows follows⟩
  have answer : ∀ (sys : System) (caller : Nat) (choice : Choice) (op : Operation)
      (phase : Operation × Stage) (req : Request) (rest : req.Reply → ConsentProgram Unit),
      sys.callers caller = some ⟨op, .call req rest⟩ → True →
      sys.world.Sound runtime → Knows runtime sys.world op phase →
      (conduct runtime).permits phase req →
      (conduct runtime).answers req (server.answer req choice sys.world).1 ∧
        (server.answer req choice sys.world).2.Sound runtime ∧
        sys.world.Follows (server.answer req choice sys.world).2 ∧
        Knows runtime (server.answer req choice sys.world).2 op
          ((conduct runtime).after phase req (server.answer req choice sys.world).1) := by
    intro sys _ choice op phase req _ _ _ sound knows permitted
    obtain ⟨answered, kept, follows, agrees⟩ := answer_sound choice permitted sound knows.2
    exact ⟨answered, kept, follows, knows.1, agrees⟩
  exact Crowd.keeps_pointwise World.Follows conducted start follow answer

theorem kept_issued (issued : world.Issued) :
    Crowd.Kept (conduct runtime) (Invariant runtime) ({ world } : System) := by
  refine kept_empty ⟨⟨fun id flow here => (issued.active id flow here).1, ?_, ?_, ?_⟩, ?_⟩
  · rw [issued.asked]
    exact nofun
  · intro id flow decision here terminal
    rw [(issued.active id flow here).2] at terminal
    cases decision <;> cases terminal
  · rw [issued.received]
    exact nofun
  · intro caller op phase here
    exact (Option.some_ne_none _ here.symm).elim

theorem World.Sound.exclusive (sound : world.Sound runtime) : world.Exclusive runtime where
  kinds first one second two same := by
    obtain ⟨flow, here, decided⟩ := sound.asked first one
    obtain ⟨flow', here', decided'⟩ := sound.asked second two
    rw [same, here'] at here
    cases here
    exact Decision.eq_of_state decided decided'
  cancelled id flow here cancelled asked among same := by
    obtain ⟨flow', here', decided⟩ := sound.asked asked among
    rw [same, here] at here'
    cases here'
    rw [OAuthFlow.DecidedAs, cancelled] at decided
    revert decided
    cases asked.decision <;> decide
  terminal id flow decision here state := by
    obtain ⟨provider, answered, same⟩ := sound.terminal id flow decision here state
    exact ⟨provider, answered, assertProviderDecision_accepted answered.2.1, same⟩
  received first one second two id kind := by
    obtain ⟨here, -, remembered⟩ := sound.received first one
    obtain ⟨here', -, remembered'⟩ := sound.received second two
    obtain ⟨_, _, _⟩ := first
    obtain ⟨_, _, _⟩ := second
    subst kind
    rw [id, here'] at here
    cases here
    cases remembered'.symm.trans remembered
    rfl

/-- The answers while every call takes effect and is answered. -/
abbrev calm (now : Int) (other : ProviderDecision) : Interpreter Consent World :=
  ⟨fun request => World.answer request ⟨now, true, true, other⟩⟩

theorem readBoundFlow_done {allowed : List FlowState} {now : Int} {other : ProviderDecision}
    (here : world.flows input.flowId = some flow) (state : flow.state ∈ allowed)
    (matches_ : Matches runtime flow input.binding input.principal) (named : blank input.flowId = false)
    (alive : isExpired runtime.dates (some flow.expiresAt) now = false)
    (owner : assertResourceOwner runtime input.principal now = .ok ()) :
    (readBoundFlow runtime input.flowId input.binding input.principal allowed).exec (calm now other) world =
      (.ok flow, world) := by
  have named : requiredString input.flowId "flowId" = .ok input.flowId := by
    rw [requiredString, named]
    rfl
  have bound := boundFlow_matches state alive matches_
  change exec (calm now other) (check (assertResourceOwner runtime input.principal now) >>= _) world = _
  rw [owner]
  rw [named]
  change exec (calm now other) (check
    (boundFlow runtime input.binding input.principal allowed now (world.flows input.flowId))) world = _
  rw [here, bound, Program.exec_check]

theorem World.Sound.repeats (sound : world.Sound runtime) : world.Repeats runtime := by
  intro input flow now here terminal matches_ named offered alive owner
  obtain ⟨provider, answered, -⟩ := sound.terminal _ flow input.decision here terminal
  refine ⟨provider, answered, fun other => ?_⟩
  have read : exec (calm now other) (readBoundFlow runtime input.flowId input.binding input.principal
      [.active, input.decision.pending, input.decision.terminal]) world = (.ok flow, world) :=
    readBoundFlow_done here (by simp [terminal]) matches_ named alive owner
  have passed : flow.state ≠ .active := by
    rw [terminal]
    cases input.decision <;> exact nofun
  unfold Identity.decide
  rw [Program.exec_bind, read]
  dsimp only
  rw [if_neg passed, decideHeld, if_neg (not_not.mpr offered)]
  change (exec (calm now other) (check (Except.ok
    ((world.remembered (consentKey runtime flow.id input.decision)).getD other)) >>= _) _).1 = _
  rw [answered.1]
  change (exec (calm now other) (check (assertProviderDecision runtime flow input.decision provider) >>= _) _).1 = _
  rw [answered.2.1]
  rw [if_pos terminal]
  rfl

/-- A step that asks the provider is one of the flow's own resource owner, and the flow says what for. -/
theorem asksRightly (event : Event) {sys : System}
    (kept : sys.Kept (conduct runtime) (Invariant runtime)) : AsksRightly runtime sys event := by
  cases event with
  | step caller choice =>
    rintro op _ decision _ _ running
    obtain ⟨_, conducted, _, agrees⟩ := kept
    obtain ⟨⟨operation', stage⟩, here, permitted, -⟩ := conducted.obeys caller _ _ running
    have known := agrees _ _ _ here
    cases stage with
    | seen held =>
      obtain ⟨rfl, decided, -, input, is, rfl, matches_⟩ := permitted
      obtain ⟨same, stored, held, leads⟩ := known
      have same : operation' = op := same
      have is : operation' = .decide input := is
      refine ⟨input, stored, by rw [← same, is], rfl, held, leads.matches_ matches_, ?_⟩
      have decided := Decision.course_of_state leads.course decided
      intro cancelled
      rw [cancelled] at decided
      revert decided
      cases input.decision <;> decide
    | _ => exact permitted.elim
  | _ => trivial

/-- However decisions and cancellations come together: of one flow the provider is asked for one kind of
decision, by its resource owner and not after it was cancelled; the flow ends as the provider has answered;
and whoever decides it again, the same way and in time, comes to the same end. -/
theorem consent_exclusive (runtime : Runtime) (world : World) (issued : world.Issued) (events : List Event) :
    (runFrom (next runtime) { world } events).world.Exclusive runtime ∧
      (runFrom (next runtime) { world } events).world.Repeats runtime ∧
      EachStep (next runtime) (AsksRightly runtime) { world } events := by
  have start : Crowd.Kept (conduct runtime) (Invariant runtime) ({ world } : System) := kept_issued issued
  have always : EachStep (next runtime) (fun _ _ => True) { world } events :=
    eachStep_of_always fun _ _ _ => trivial
  have steps := eachStep_of_steps (Crowd.Kept (conduct runtime) (Invariant runtime))
    (fun _ event held allowed => (keeps runtime).advance event held allowed) start always
  obtain ⟨_, -, sound, -⟩ := (keeps runtime).run start always
  exact ⟨sound.exclusive, sound.repeats, steps.imp fun event _ _ held => asksRightly event held.1⟩

private def plainRuntime : Runtime where
  dates := utcDates
  sha256 := id
  hmac kind value := kind ++ value
  url text := some ⟨"https:", "app.test", "", "", text⟩
  providers := ["github"]

private def pendingFlow : OAuthFlow where
  id := "flow"
  provider := "github"
  providerAuthorizationRequestId := "request"
  resourceOwner := "ada"
  resourceOwnerPrincipalId := "principal"
  sessionId := "session"
  authorityRevision := "1"
  browserBindingDigest := "browserb"
  csrfBindingDigest := "csrfc"
  state := .active
  expiresAt := "2030-01-01T00:00:00.000Z"
  version := 1

private def consent (decision : Decision) : ConsentDecision :=
  ⟨"flow", decision, ⟨"b", "c"⟩, ⟨"principal", "human", "human", "ada", some "session", "1", none⟩⟩

private def accepting : Choice := ⟨0, true, true, ⟨"decision", "request", true, "https://app.test/"⟩⟩

private def offered : World :=
  ⟨update (fun _ => none) "flow" (some pendingFlow), fun _ => none, [], []⟩

private def race : List Event :=
  [.start 0 (.decide (consent .approve)), .start 1 (.decide (consent .deny)),
    .step 0 accepting, .step 0 accepting, .step 1 accepting, .step 1 accepting] ++
    List.replicate 5 (.step 0 accepting) ++ List.replicate 5 (.step 1 accepting)

private theorem offered_issued : offered.Issued where
  active id flow here := by
    by_cases same : id = "flow"
    · subst same
      cases here
      exact ⟨rfl, rfl⟩
    · change update (fun _ => none) "flow" (some pendingFlow) id = some flow at here
      rw [update_of_ne same] at here
      cases here
  asked := rfl
  received := rfl

theorem consent_exclusive_race :
    ((runFrom (next plainRuntime) { world := offered } race).world.flows "flow").map (·.state) = some .approved ∧
      (runFrom (next plainRuntime) { world := offered } race).world.asked = [⟨"flow", .approve⟩] ∧
      (runFrom (next plainRuntime) { world := offered } race).world.Exclusive plainRuntime ∧
      (runFrom (next plainRuntime) { world := offered } race).world.Repeats plainRuntime ∧
      EachStep (next plainRuntime) (AsksRightly plainRuntime) { world := offered } race :=
  ⟨by decide +kernel, by decide +kernel, consent_exclusive plainRuntime offered offered_issued race⟩

end Applik8s.Identity
