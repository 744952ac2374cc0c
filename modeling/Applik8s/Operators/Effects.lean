import Applik8s.Operators.Recorder
import Mathlib.Algebra.Order.Group.Multiset

/-! What a handler's calls ask for, and when the emitted plan carries all of it. The asked
effects are read off the calls alone; the recorder loses some of them where a bare manifest
stands in for an operation, where it copies an operation field by field, and where it
answers a context call with a result. -/
namespace Applik8s.Operators

/-- The operation with the fields the options name put over its own. -/
def ApplyTargetOptions.onto (options : ApplyTargetOptions) (operation : ApplyOperation) :
    ApplyOperation :=
  { operation with
    fieldManager := whenTruthy options.fieldManager <|> operation.fieldManager
    force := options.force <|> operation.force
    ownership := options.ownership <|> options.owner.map (.reference · none) <|> operation.ownership }

/-- Delete options with the fields that are named put over a base. -/
def DeleteOptions.onto (options : DeleteOptions) (base : Option DeleteOptions) :
    Option DeleteOptions :=
  if options = {} then base
  else some
    { propagationPolicy := options.propagationPolicy <|> base.bind (·.propagationPolicy)
      gracePeriodSeconds := options.gracePeriodSeconds <|> base.bind (·.gracePeriodSeconds)
      preconditions := options.preconditions <|> base.bind (·.preconditions) }

variable {Options : Type} (companion : Option (Companion Options)) (target : OperationTarget)
  (options : Option DeleteTargetOptions)

/-- Delete options with those of a call, if it gives any, put over them. -/
def overridden (base : Option DeleteOptions) :
    Option DeleteOptions :=
  options.elim base fun options => options.toDeleteOptions.onto base

def DeleteTargetOptions.namesAny (options : DeleteTargetOptions) : Bool :=
  options.isDeleteTargetOptions || options.preconditions.isSome

/-- Applying a target: every operation of its artifact plan under the options, or the plan
its adapter renders. -/
def askedApply (target : OperationTarget) (options : Option ApplyTargetOptions) : List Entry :=
  match target.operationTargetArtifacts with
  | some artifacts => artifacts.applyPlan.map fun operation =>
      match operation with
      | .apply operation => .operation (.apply (options.elim operation (·.onto operation)))
      | other => .operation other
  | none =>
    match target.renderApply options with
    | .ok operations => operations.map .operation
    | .error _ => []

def askedDelete (target : OperationTarget) (options : Option DeleteTargetOptions) : List Entry :=
  match target.operationTargetArtifacts with
  | some artifacts => artifacts.deletePlan.map fun operation =>
      match operation with
      | .delete operation => .operation (.delete
          { operation with options := overridden options operation.options })
      | other => .operation other
  | none =>
    match target.renderDelete options with
    | .ok operations => operations.map .operation
    | .error _ => []

def ApplyOperationInput.asked : ApplyOperationInput → Entry
  | .object resource => .operation (.apply { resource := resource })
  | .operation effect => .operation (.apply effect)

def DeleteOperationInput.asked : DeleteOperationInput → Entry
  | .reference ref => .operation (.delete { ref := ref })
  | .operation effect => effect.val

/-- The targets a plan names, which it asks to apply and to delete. -/
def OperationPlanInput.askedTargets (plan : OperationPlanInput) : List Entry :=
  plan.applyTargets.flatMap (fun (target, options) => askedApply target options)
    ++ plan.deleteTargets.flatMap fun (target, options) => askedDelete target options

def OperationPlanInput.asked (plan : OperationPlanInput) : List Entry :=
  plan.askedTargets ++ (plan.apply.getD [] ++ plan.resources.getD []).map ApplyOperationInput.asked
    ++ (plan.patch.getD []).map Subtype.val
    ++ (plan.delete.getD []).map DeleteOperationInput.asked
    ++ (plan.events.getD []).map Subtype.val
    ++ (plan.finalizers.getD []).map Subtype.val
    ++ (plan.requeue.map fun policy => Entry.operation (.requeue policy)).toList

def Companion.plan? : Option (Companion Options) → Option OperationPlanInput
  | some (.plan following) => some following
  | _ => none

/-- The delete options given along with several targets. -/
def Companion.options? : Option (Companion Options) → Option Options
  | some (.options settings) => some settings
  | _ => none

def Companion.asked : List Entry :=
  (Companion.plan? companion).elim [] OperationPlanInput.asked

def ApplyValue.asked : ApplyValue → List Entry
  | .object resource options =>
    [.operation (.apply (options.elim { resource := resource } (·.onto { resource := resource })))]
  | .target chosen options => askedApply chosen (options.filter (·.isApplyTargetOptions))
  | .targets chosen companion =>
    chosen.flatMap (askedApply · (Companion.applyOptions companion)) ++ Companion.asked companion
  | .plan input => input.asked

def DeleteValue.asked : DeleteValue → List Entry
  | .reference ref options => [.operation (.delete { ref := ref, options := overridden options none })]
  | .target chosen options => askedDelete chosen (options.filter (·.namesAny))
  | .targets chosen companion =>
    chosen.flatMap (askedDelete · ((Companion.options? companion).filter (·.namesAny))) ++ Companion.asked companion

/-- Everything a call asks for, requeues included, apart from the status draft. -/
def Call.asked : Call → List Entry
  | .apply _ value => value.asked
  | .applyGraph _ rendered =>
    match rendered with
    | .ok operations => operations.map .operation
    | .error _ => []
  | .delete _ value => value.asked
  | .noop => []
  | .resourcesApply resource options =>
    [.operation (.apply (options.elim { resource := resource } (·.onto { resource := resource })))]
  | .resourcesApplyTarget target options => askedApply target options
  | .resourcesDelete ref options => [.operation (.delete { ref := ref, options := overridden options none })]
  | .resourcesDeleteTarget target options => askedDelete target options
  | .patch ref changes => [.operation (.patch { ref := ref, patch := changes })]
  | .setStatus ref status => [.operation (.status { status := status, ref := some ref })]
  | .event operation => [.operation (.event operation)]
  | .finalizer operation => [.operation (.finalizer operation)]
  | .requeue policy => [.operation (.requeue policy)]
  | .draft _ => []
  | .connectionApply connection resource options =>
    [.operation (.apply
      { resource := resource, connection := some connection, authority := some options.authority
        fieldManager := whenTruthy options.fieldManager, force := options.force
        ownership := options.ownership })]
  | .connectionPatch connection ref changes authority =>
    [.operation (.patch
      { ref := ref, patch := changes, connection := some connection
        authority := some authority })]
  | .connectionDelete connection ref options =>
    [.operation (.delete
      { ref := ref, options := options.toDeleteOptions.onto none
        connection := some connection, authority := some options.authority })]

variable (status : List (String × Json))

def Call.drafted : Call → List (String × Json)
  | .draft next => next
  | .apply _ (.plan plan) => Record.assign status (plan.status.getD [])
  | .apply _ (.targets _ companion) => Record.assign status ((Companion.plan? companion).bind (·.status) |>.getD [])
  | .delete _ (.targets _ companion) => Record.assign status ((Companion.plan? companion).bind (·.status) |>.getD [])
  | _ => status

/-- A call that answers the handler with everything recorded so far. -/
def Call.answers : Call → Bool
  | .apply .context _ => true
  | .applyGraph .context (.ok _) => true
  | .delete .context (.target ..) => true
  | .delete .context (.targets ..) => true
  | .noop => true
  | _ => false

variable (calls : List Call)

def finalDraft : List (String × Json) :=
  calls.foldl Call.drafted status

def Entry.isRequeue : Entry → Bool
  | .operation (.requeue _) => true
  | _ => false

/-- The last requeue among entries, after an earlier one. -/
def lastRequeue (earlier : Option RequeuePolicy) (entries : List Entry) : Option RequeuePolicy :=
  entries.foldl (fun last entry =>
    match entry with
    | .operation (.requeue policy) => some policy
    | _ => last) earlier

def effects (entries : List Entry) : Multiset Entry := ↑(entries.filter fun entry => !entry.isRequeue)

/-- The status operation a plan should end with: the final draft, when it differs from the
status at the start. -/
def ownStatus : List Entry :=
  let draft := Json.object (finalDraft status calls)
  if canonicalJson draft ≠ canonicalJson (.object status) then
    [.operation (.status { status := draft })]
  else []

/-- A plan carries all the calls ask for: each effect exactly once, the last requeue, and the
final draft exactly when it differs from the status at the start. -/
def Delivers (plan : List Entry) : Prop :=
  (plan : Multiset Entry) = effects (calls.flatMap Call.asked) + ↑(ownStatus status calls)
    + ↑((lastRequeue none (calls.flatMap Call.asked)).map fun policy => Entry.operation (.requeue policy)).toList

instance (status : List (String × Json)) (calls : List Call) (plan : List Entry) :
    Decidable (Delivers status calls plan) :=
  inferInstanceAs (Decidable ((plan : Multiset Entry) = _))

/-- Options name every field an artifact's apply operation sets besides its resource. -/
structure ApplyTargetOptions.Covers (options : ApplyTargetOptions) (operation : ApplyOperation) :
    Prop where
  fieldManager : operation.fieldManager ≠ none → truthy options.fieldManager = true
  force : operation.force ≠ none → options.force ≠ none
  ownership : operation.ownership ≠ none → options.ownership ≠ none ∨ options.owner ≠ none
  connection : operation.connection = none
  authority : operation.authority = none

/-- Options name no precondition, and every field an artifact's delete operation sets as soon
as they name one; and the operation is not bound to a connection. -/
structure DeleteTargetOptions.Covers (options : DeleteTargetOptions)
    (base : Option DeleteOptions) : Prop where
  preconditions : options.preconditions = none
  fields : deleteOptions options.toDeleteOptions ≠ none → ∀ set, base = some set →
    set.preconditions = none ∧ (set.propagationPolicy ≠ none → options.propagationPolicy ≠ none) ∧
      (set.gracePeriodSeconds ≠ none → options.gracePeriodSeconds ≠ none)

/-- A target without artifacts, or one whose applies are given options that cover them. -/
def CarriesApply (options : Option ApplyTargetOptions) : Prop :=
  ∀ artifacts, target.operationTargetArtifacts = some artifacts →
    ∀ operation, .apply operation ∈ artifacts.applyPlan → ∃ named, options = some named ∧ named.Covers operation

/-- A target without artifacts, or one whose deletes the options, if any, cover. -/
def CarriesDelete : Prop :=
  ∀ artifacts, target.operationTargetArtifacts = some artifacts →
    ∀ operation, .delete operation ∈ artifacts.deletePlan → operation.connection = none ∧
        ∀ named, options = some named → named.Covers operation.options

/-- `isDeleteTargetOptions` takes the options for what they are, unless an adapter that
renders them would miss a precondition named alone. -/
def PassesOptions : Prop :=
  target.operationTargetArtifacts = none → ∀ named, options = some named → named.namesAny = named.isDeleteTargetOptions

/-- A plan without bare inputs that pass for operations, whose targets ask for nothing. -/
structure OperationPlanInput.Carries (plan : OperationPlanInput) : Prop where
  applies : ∀ resource, .object resource ∈ plan.apply.getD [] ++ plan.resources.getD [] → resource.kind ≠ "apply"
  deletes : ∀ ref, .reference ref ∈ plan.delete.getD [] → ref.kind ≠ "delete"
  targets : plan.askedTargets = []

/-- A companion plan that carries all it asks for and is known for a plan, or asks for
nothing. -/
def Companion.Carries : Prop :=
  ∀ plan, Companion.plan? companion = some plan →
    if plan.isOperationPlan then plan.Carries else plan.asked = []

def ApplyValue.Carries : ApplyValue → Prop
  | .object resource options => resource.kind = "apply" → (options.filter (·.isApplyTargetOptions)).isSome
  | .target chosen options => CarriesApply chosen (options.filter (·.isApplyTargetOptions))
  | .targets chosen companion =>
    (∀ target ∈ chosen, CarriesApply target (Companion.applyOptions companion)) ∧ Companion.Carries companion
  | .plan input => input.Carries

def DeleteValue.Carries : DeleteValue → Prop
  | .reference _ options => ∀ named, options = some named → named.preconditions = none
  | .target chosen options => CarriesDelete chosen options ∧ PassesOptions chosen options
  | .targets chosen companion =>
    (∀ target ∈ chosen, CarriesDelete target (Companion.options? companion) ∧
      PassesOptions target (Companion.options? companion)) ∧ Companion.Carries companion

/-- Every effect the call asks for reaches the recorder as it was asked for. -/
def Call.Carries : Call → Prop
  | .apply _ value => value.Carries
  | .delete _ value => value.Carries
  | .resourcesApply resource options => resource.kind = "apply" → options.isSome
  | .resourcesApplyTarget target options => CarriesApply target options
  | .resourcesDelete _ options => ∀ named, options = some named → named.preconditions = none
  | .resourcesDeleteTarget target options => CarriesDelete target options
  | .connectionDelete _ _ options => options.preconditions = none
  | _ => True

/-- The draft after a call, and the draft the last answer reported. -/
def Call.reports (draft : List (String × Json) × Json) (call : Call) :
    List (String × Json) × Json :=
  let next := call.drafted draft.1
  (next, if call.answers then canonicalJson (.object next) else draft.2)

/-- The draft the last answering call reported, or the status at the start. -/
def reportedDraft : Json :=
  (calls.foldl Call.reports (status, canonicalJson (.object status))).2

/-- No answer has reported a change of the draft, or the draft was changed once more
afterwards, to neither what was reported nor the status at the start. -/
def DraftKept : Prop :=
  let draft := canonicalJson (.object (finalDraft status calls))
  reportedDraft status calls = canonicalJson (.object status) ∨
    (draft ≠ reportedDraft status calls ∧ draft ≠ canonicalJson (.object status))

end Applik8s.Operators
