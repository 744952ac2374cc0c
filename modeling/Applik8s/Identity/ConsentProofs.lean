import Applik8s.Identity.Consent

/-! Consent decisions are exclusive. A flow moves forward only, so whoever holds an older version of it
knows what it can have become: the provider is asked only once the flow says which way it is decided, and
from there it can only end that way. -/
namespace Applik8s.Identity
open Lib
variable {runtime : Runtime} {world : World} {flow later last stored : OAuthFlow}
  {decision : Decision} {input : ConsentDecision}

section
variable (runtime : Runtime) (world : World)

/-- The binding and the principal are those of the flow. -/
structure Matches (flow : OAuthFlow) (binding : Binding) (principal : Principal) : Prop where
  browser : ∃ text, digest runtime "browser" binding.browserBinding = .ok text ∧
    timingSafeTextEqual runtime flow.browserBindingDigest text
  csrf : ∃ text, digest runtime "csrf" binding.csrfToken = .ok text ∧
    timingSafeTextEqual runtime flow.csrfBindingDigest text
  owner : principal.id = flow.resourceOwnerPrincipalId
  identity : principal.identityId = flow.resourceOwner
  session : principal.sessionId = some flow.sessionId
  authority : principal.authorityRevision = flow.authorityRevision

/-- The provider has answered this decision of the flow, as asked. -/
def World.Answered (flow : OAuthFlow) (decision : Decision) (provider : ProviderDecision) : Prop :=
  world.remembered (consentKey runtime flow.id decision) = some provider ∧
    assertProviderDecision runtime flow decision provider = .ok () ∧ ⟨flow.id, decision⟩ ∈ world.asked

/-- Of one flow the provider is asked for one kind of decision, and for none if it is cancelled; a flow is
approved or denied only with the provider's answer to that; and all that callers received is the same. -/
structure World.Exclusive : Prop where
  kinds : ∀ first ∈ world.asked, ∀ second ∈ world.asked, first.flowId = second.flowId →
    first.decision = second.decision
  cancelled : ∀ id flow, world.flows id = some flow → flow.state = .cancelled → ∀ asked ∈ world.asked, asked.flowId ≠ id
  terminal : ∀ id flow decision, world.flows id = some flow → flow.state = decision.terminal →
    ∃ provider, world.Answered runtime flow decision provider ∧
      (provider.accepted ↔ decision = .approve) ∧ flow.providerDecisionId = some provider.id
  received : ∀ first ∈ world.received, ∀ second ∈ world.received, first.2.1.id = second.2.1.id →
    first.1 = second.1 → first = second

/-- Whoever asks the provider has the binding and the resource owner of the flow, which is not cancelled. -/
def AsksRightly (system : System) : Event → Prop
  | .step caller _ => ∀ operation flow decision key rest,
      system.callers caller = some ⟨operation, .call (.decide flow decision key) rest⟩ →
        ∃ input stored, operation = .decide input ∧ input.decision = decision ∧
          system.world.flows flow.id = some stored ∧
          Matches runtime stored input.binding input.principal ∧ stored.state ≠ .cancelled
  | _ => True

/-- A decision that is made again before the flow expires, by its resource owner, comes to the same end. -/
def World.Repeats : Prop :=
  ∀ (input : ConsentDecision) (flow : OAuthFlow) (now : Int), world.flows input.flowId = some flow →
    flow.state = input.decision.terminal →
    Matches runtime flow input.binding input.principal → blank input.flowId = false →
    flow.provider ∈ runtime.providers → isExpired runtime.dates (some flow.expiresAt) now = false →
    assertResourceOwner runtime input.principal now = .ok () →
    ∃ provider, world.Answered runtime flow input.decision provider ∧ ∀ other, ((Identity.decide runtime input).exec
        ⟨fun request => World.answer request ⟨now, true, true, other⟩⟩ world).1 =
        .ok (flow, provider)

end

def FlowState.final : FlowState → Bool
  | .approved | .denied | .cancelled => true
  | _ => false

def FlowState.course : FlowState → FlowState → Bool
  | .active, _ => true
  | .approving, state => state = .approving || state = .approved
  | .denying, state => state = .denying || state = .denied
  | before, state => state = before

structure OAuthFlow.Leads (flow later : OAuthFlow) : Prop where
  same : later = { flow with
    state := later.state, decidedAt := later.decidedAt
    providerDecisionId := later.providerDecisionId, version := later.version }
  older : flow.version ≤ later.version
  current : flow.version = later.version → later = flow
  course : flow.state.course later.state
  final : flow.state.final → later = flow

theorem FlowState.course_refl (state : FlowState) : state.course state := by cases state <;> rfl

theorem FlowState.course_trans {first : FlowState} (one : first.course second) (two : second.course third)
    : first.course third := by
  revert one two
  cases first <;> cases second <;> cases third <;> decide

theorem OAuthFlow.Leads.refl (flow : OAuthFlow) : flow.Leads flow where
  same := rfl
  older := le_rfl
  current _ := rfl
  course := flow.state.course_refl
  final _ := rfl

theorem OAuthFlow.Leads.trans (one : flow.Leads later) (two : later.Leads last) : flow.Leads last where
  same := by rw [two.same, one.same]
  older := one.older.trans two.older
  current same := by
    obtain rfl := one.current (le_antisymm one.older (two.older.trans same.ge))
    exact two.current same
  course := FlowState.course_trans one.course two.course
  final ends := by
    obtain rfl := one.final ends
    exact two.final ends

theorem OAuthFlow.Leads.id (leads : flow.Leads later) : later.id = flow.id := by rw [leads.same]

theorem OAuthFlow.leads_next {state : FlowState} {decidedAt providerDecisionId : Option String}
    (course : flow.state.course state) (open_ : flow.state.final = false) :
    flow.Leads { flow with state, decidedAt, providerDecisionId, version := flow.version + 1 } where
  same := rfl
  older := Nat.le_succ _
  current same := absurd same (Nat.lt_succ_self _).ne
  course := course
  final ends := by rw [open_] at ends; cases ends

theorem Decision.terminal_final (decision : Decision) : decision.terminal.final = true := by
  cases decision <;> rfl

theorem Decision.eq_of_state (one : state ∈ [decision.pending, decision.terminal])
    (two : state ∈ [other.pending, other.terminal]) : decision = other := by
  revert one two
  cases decision <;> cases other <;> cases state <;> decide

theorem Decision.course_of_state (course : before.course after)
    (decided : before ∈ [decision.pending, decision.terminal]) : after ∈ [decision.pending, decision.terminal] := by
  revert course decided
  cases decision <;> cases before <;> cases after <;> decide

/-- What `#boundFlow` has made sure of. -/
theorem boundFlow_ok {read : Option OAuthFlow}
    (done : boundFlow runtime binding principal allowed now read = .ok flow) :
    read = some flow ∧ flow.state ∈ allowed ∧ Matches runtime flow binding principal := by
  unfold boundFlow at done
  cases read with
  | none => cases done
  | some found =>
    dsimp only at done
    split at done
    · cases done
    next available =>
    simp only [Bool.or_eq_true, decide_eq_true_eq, not_or, not_not] at available
    cases browser : digest runtime "browser" binding.browserBinding with
    | error => rw [browser] at done; cases done
    | ok text =>
      rw [browser] at done
      change (if _ then _ else _) = _ at done
      split at done
      · cases done
      next one =>
      cases csrf : digest runtime "csrf" binding.csrfToken with
      | error => rw [csrf] at done; cases done
      | ok text' =>
        rw [csrf] at done
        change (if _ then _ else _) = _ at done
        split at done
        · cases done
        next two =>
        split at done
        · cases done
        next owner =>
        cases done
        simp only [Bool.not_eq_true', Bool.not_eq_false] at one two
        simp only [Bool.or_eq_true, decide_eq_true_eq, not_or, not_not] at owner
        obtain ⟨⟨⟨principal, identity⟩, session⟩, authority⟩ := owner
        exact ⟨rfl, available.1, ⟨text, browser, one⟩, ⟨text', csrf, two⟩, principal, identity, session, authority⟩

theorem boundFlow_matches (allowed_ : flow.state ∈ allowed)
    (alive : isExpired runtime.dates (some flow.expiresAt) now = false)
    (matches_ : Matches runtime flow binding principal) :
    boundFlow runtime binding principal allowed now (some flow) = .ok flow := by
  obtain ⟨⟨_, browser, one⟩, ⟨_, csrf, two⟩, id, identity, session, authority⟩ := matches_
  unfold boundFlow
  dsimp only
  rw [if_neg (by simp [allowed_, alive]), browser]
  change (if _ then _ else _) = _
  rw [if_neg (by simp [one]), csrf]
  change (if _ then _ else _) = _
  rw [if_neg (by simp [two]), if_neg (by simp [id, identity, session, authority])]
  rfl

theorem assertProviderDecision_accepted (asserted : assertProviderDecision runtime flow decision provider = .ok ()) :
    provider.accepted ↔ decision = .approve := by
  unfold assertProviderDecision at asserted
  split at asserted
  · cases asserted
  next fits =>
  simp only [Bool.or_eq_true, decide_eq_true_eq, not_or, not_not] at fits
  rw [fits.2, decide_eq_true_eq]

theorem OAuthFlow.Leads.matches_ (leads : flow.Leads later) (matches_ : Matches runtime flow binding principal)
    : Matches runtime later binding principal := by
  rw [leads.same]
  exact ⟨matches_.browser, matches_.csrf, matches_.owner, matches_.identity, matches_.session, matches_.authority⟩

end Applik8s.Identity
