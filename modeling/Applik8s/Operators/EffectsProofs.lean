import Applik8s.Lib.Program
import Applik8s.Operators.Effects
import Mathlib.Tactic.Abel

/-! The recorder takes in exactly what carried calls ask for: one lemma for each bucket, then
for the merge of an operation plan, for targets, for plans, for one call and for all of them.
The status draft and the snapshot are followed apart from the buckets. -/
namespace Applik8s.Operators
open List
open Lib (bind_ok)
open Multiset (coe_add)
open Recorder (answered applyFollowing applyPlan applyValue deleteAnswered filled patchLike perform result)
open ApplyOperationInput (entry normalized)
open Companion (Carries followingPlan plan?)
open Call (answers drafted reports)

namespace Recorder

/-- Everything in the buckets, as the plan will show it. -/
def entries (recorder : Recorder) : Multiset Entry :=
  ↑(recorder.apply.map ApplyOperationInput.normalized) + ↑recorder.patch
    + ↑(recorder.deletes.map DeleteOperationInput.normalized)
    + ↑(recorder.events.map Subtype.val) + ↑(recorder.finalizers.map Subtype.val)

/-- The patch bucket holds what `result()` does not filter out. -/
def PatchesTyped (recorder : Recorder) : Prop :=
  ∀ entry ∈ recorder.patch, entry.kind = "patch" ∨ entry.kind = "status"

structure Absorbs (asked : List Entry) (before after : Recorder) : Prop where
  entries : after.entries = before.entries + effects asked
  requeue : after.requeue = lastRequeue before.requeue asked
  patches : before.PatchesTyped → after.PatchesTyped

end Recorder

@[simp] theorem effects_nil : effects [] = 0 := rfl

@[simp] theorem effects_append : effects (first ++ second) = effects first + effects second := by
  simp [effects]

theorem effects_of_kinds (typed : ∀ entry ∈ first, entry.kind ≠ "requeue") :
    effects first = (first : Multiset Entry) := by
  have kept : first.filter (fun entry => !entry.isRequeue) = first := by
    apply filter_eq_self.mpr
    intro entry member
    have other := typed entry member
    cases entry with
    | operation effect => cases effect <;> simp_all [Entry.isRequeue, Entry.kind, Operation.kind]
    | object => rfl
    | reference ref => rfl
  rw [effects, kept]

@[simp] theorem lastRequeue_nil : lastRequeue earlier [] = earlier :=
  rfl

theorem lastRequeue_append :
    lastRequeue earlier (first ++ second) = lastRequeue (lastRequeue earlier first) second := by
  simp [lastRequeue]

theorem lastRequeue_of_kinds (typed : ∀ entry ∈ first, entry.kind ≠ "requeue")
    : lastRequeue earlier first = earlier := by
  induction first generalizing earlier with
  | nil => rfl
  | cons head rest ih =>
    have other := typed head (by simp)
    have kept : lastRequeue earlier [head] = earlier := by
      cases head with
      | operation effect => cases effect <;> simp_all [lastRequeue, Entry.kind, Operation.kind]
      | object => rfl
      | reference ref => rfl
    rw [← singleton_append, lastRequeue_append, kept]
    exact ih fun entry member => typed entry (by simp [member])

namespace Recorder.Absorbs
variable {recorder middle after : Recorder} {first second : List Entry}

theorem refl (recorder : Recorder) : Absorbs [] recorder recorder where
  entries := by simp
  requeue := rfl
  patches := id

theorem trans (one : Absorbs first recorder middle) (two : Absorbs second middle after) :
    Absorbs (first ++ second) recorder after where
  entries := by rw [two.entries, one.entries, effects_append, add_assoc]
  requeue := by rw [two.requeue, one.requeue, lastRequeue_append]
  patches := two.patches ∘ one.patches

theorem answered (absorbed : Absorbs first recorder after) (surface : Surface) :
    Absorbs first recorder (after.answered surface) := by
  cases surface with
  | scope => exact absorbed
  | context => exact ⟨absorbed.entries, absorbed.requeue, absorbed.patches⟩

end Recorder.Absorbs

section
variable (recorder : Recorder)

theorem absorbs_apply (inputs : List ApplyOperationInput) (same : ∀ input ∈ inputs, input.normalized = input.asked) :
    Recorder.Absorbs (inputs.map ApplyOperationInput.asked) recorder
      { recorder with apply := recorder.apply ++ inputs } := by
  have typed : ∀ entry ∈ inputs.map ApplyOperationInput.asked, entry.kind ≠ "requeue" := by
    intro entry member
    obtain ⟨input, -, rfl⟩ := mem_map.mp member
    cases input <;> simp [ApplyOperationInput.asked, Entry.kind, Operation.kind]
  have equal : inputs.map normalized = inputs.map ApplyOperationInput.asked :=
    map_congr_left same
  refine ⟨?_, (lastRequeue_of_kinds typed).symm, id⟩
  rw [effects_of_kinds typed]
  simp only [Recorder.entries, map_append, equal, ← coe_add]
  abel

theorem absorbs_patch (patches : List Entry) (typed : ∀ entry ∈ patches, entry.kind = "patch" ∨ entry.kind = "status") :
    Recorder.Absorbs patches recorder { recorder with patch := recorder.patch ++ patches } := by
  have other : ∀ entry ∈ patches, entry.kind ≠ "requeue" := by
    intro entry member
    rcases typed entry member with _ | _ <;> simp [*]
  refine ⟨?_, (lastRequeue_of_kinds other).symm, ?_⟩
  · rw [effects_of_kinds other]
    simp only [Recorder.entries, ← coe_add]
    abel
  intro before entry member
  rcases mem_append.mp member with earlier | later
  · exact before entry earlier
  · exact typed entry later

theorem absorbs_delete (inputs : List DeleteOperationInput) (same : ∀ input ∈ inputs, input.normalized = input.asked) :
    Recorder.Absorbs (inputs.map DeleteOperationInput.asked) recorder
      { recorder with deletes := recorder.deletes ++ inputs } := by
  have typed : ∀ entry ∈ inputs.map DeleteOperationInput.asked, entry.kind ≠ "requeue" := by
    intro entry member
    obtain ⟨input, -, rfl⟩ := mem_map.mp member
    cases input with
    | reference ref => simp [DeleteOperationInput.asked, Entry.kind, Operation.kind]
    | operation effect =>
      have tagged : effect.val.kind = "delete" := by simpa using effect.property
      simp [DeleteOperationInput.asked, tagged]
  have equal : inputs.map DeleteOperationInput.normalized = inputs.map DeleteOperationInput.asked :=
    map_congr_left same
  refine ⟨?_, (lastRequeue_of_kinds typed).symm, id⟩
  rw [effects_of_kinds typed]
  simp only [Recorder.entries, map_append, equal, ← coe_add]
  abel

private theorem kind_of_tagged (other : kind ≠ "requeue") (entries : List (Tagged [kind])) :
    ∀ entry ∈ entries.map Subtype.val, entry.kind ≠ "requeue" := by
  intro entry member
  obtain ⟨tagged, -, rfl⟩ := mem_map.mp member
  have named : tagged.val.kind = kind := by simpa using tagged.property
  rwa [named]

theorem absorbs_events (events : List EventEntry) : Recorder.Absorbs (events.map Subtype.val) recorder
      { recorder with events := recorder.events ++ events } := by
  have typed := kind_of_tagged (by simp) events
  refine ⟨?_, (lastRequeue_of_kinds typed).symm, id⟩
  rw [effects_of_kinds typed]
  simp only [Recorder.entries, map_append, ← coe_add]
  abel

theorem absorbs_finalizers (finalizers : List FinalizerEntry) : Recorder.Absorbs (finalizers.map Subtype.val) recorder
      { recorder with finalizers := recorder.finalizers ++ finalizers } := by
  have typed := kind_of_tagged (by simp) finalizers
  refine ⟨?_, (lastRequeue_of_kinds typed).symm, id⟩
  rw [effects_of_kinds typed]
  simp only [Recorder.entries, map_append, ← coe_add]
  abel

theorem absorbs_requeue (policy : RequeuePolicy) : Recorder.Absorbs [.operation (.requeue policy)] recorder
      { recorder with requeue := some policy } := by
  refine ⟨?_, rfl, id⟩
  simp [Recorder.entries, effects, Entry.isRequeue]

/-- The switch of `mergeNormalizedPlan` puts every operation in its bucket. -/
theorem absorbs_mergeEntry (op : Operation) :
    Recorder.Absorbs [.operation op] recorder (recorder.mergeEntry (.operation op)) := by
  cases op with
  | apply effect =>
    exact absorbs_apply recorder [.operation effect] (by simp [normalized, ApplyOperationInput.asked])
  | requeue policy => exact absorbs_requeue recorder policy
  | patch effect => exact absorbs_patch recorder [.operation (.patch effect)] (by simp [Entry.kind, Operation.kind])
  | status effect =>
    exact absorbs_patch recorder [.operation (.status effect)] (by simp [Entry.kind, Operation.kind])
  | delete effect =>
    exact absorbs_delete recorder [.operation ⟨.operation (.delete effect), by simp [Entry.kind, Operation.kind]⟩]
      (by simp [DeleteOperationInput.normalized, DeleteOperationInput.asked])
  | event effect => exact absorbs_events recorder [⟨.operation (.event effect), by simp [Entry.kind, Operation.kind]⟩]
  | finalizer effect =>
    exact absorbs_finalizers recorder [⟨.operation (.finalizer effect), by simp [Entry.kind, Operation.kind]⟩]

theorem absorbs_merge (ops : List Operation) : Recorder.Absorbs (ops.map .operation) recorder
      (recorder.mergeNormalizedPlan (ops.map .operation)) := by
  induction ops generalizing recorder with
  | nil => exact .refl recorder
  | cons op rest ih =>
    exact (absorbs_mergeEntry recorder op).trans (ih (recorder.mergeEntry (.operation op)))

end

section
variable {after : Recorder}

private theorem orElse_covered {α : Type} {chosen fallback : Option α}
    (covered : fallback ≠ none → chosen ≠ none) : (chosen <|> fallback) = chosen := by
  cases fallback with
  | none => simp
  | some value =>
    obtain ⟨_, rfl⟩ := Option.ne_none_iff_exists'.mp (covered (by simp))
    rfl

theorem applyInput_covered (covers : opts.Covers op) :
    applyInput op.resource (some opts) = .operation (opts.onto op) := by
  have manager : (whenTruthy opts.fieldManager <|> op.fieldManager) = whenTruthy opts.fieldManager := by
    apply orElse_covered
    intro set
    have named := covers.fieldManager set
    rw [whenTruthy, if_pos named]
    rintro missing
    simp [missing] at named
  have forced : (opts.force <|> op.force) = opts.force := orElse_covered covers.force
  have owned : (opts.ownership <|> opts.owner.map (.reference · none)
      <|> op.ownership) = (opts.ownership <|> opts.owner.map (.reference · none)) := by
    cases chosen : opts.ownership with
    | some => rfl
    | none =>
      have fallback : (opts.owner.map (ApplyOwnership.reference · none)
          <|> op.ownership) = opts.owner.map (.reference · none) := by
        apply orElse_covered
        intro set
        rcases covers.ownership set with given | given
        · exact absurd chosen given
        · simpa using given
      simpa using fallback
  obtain ⟨_, _, _, _, connection, authority⟩ := op
  have unbound : connection = none := covers.connection
  have unauthorized : authority = none := covers.authority
  subst unbound unauthorized
  simp only [applyInput, ApplyTargetOptions.onto]
  rw [manager, forced, owned]

theorem deleteOptions_covered {opts : DeleteTargetOptions} (covers : opts.Covers base) :
    (deleteOptions opts.toDeleteOptions <|> base) = opts.toDeleteOptions.onto base := by
  obtain ⟨⟨policy, grace, preconditions⟩, _⟩ := opts
  have unguarded : preconditions = none := covers.preconditions
  subst unguarded
  by_cases none_named : policy = none ∧ grace = none
  · obtain ⟨rfl, rfl⟩ := none_named
    simp [deleteOptions, DeleteOptions.onto]
  have named : deleteOptions ⟨policy, grace, none⟩ = some ⟨policy, grace, none⟩ := by
    cases policy <;> cases grace <;> simp_all [deleteOptions]
  have some_field : (⟨policy, grace, none⟩ : DeleteOptions) ≠ {} := by simpa using none_named
  rw [named, DeleteOptions.onto, if_neg some_field]
  cases base with
  | none => simp
  | some set =>
    obtain ⟨unguarded, same_policy, same_grace⟩ := covers.fields (by simp [named]) set rfl
    obtain ⟨set_policy, set_grace, set_preconditions⟩ := set
    have unguarded' : set_preconditions = none := unguarded
    subst unguarded'
    have policies : (policy <|> set_policy) = policy := orElse_covered same_policy
    have graces : (grace <|> set_grace) = grace := orElse_covered same_grace
    simp [policies, graces]

private theorem exists_operations {turn : Operation → Entry} (each : ∀ op, ∃ turned, turn op = .operation turned)
    (plan : List Operation) : ∃ ops : List Operation, plan.map turn = ops.map .operation := by
  induction plan with
  | nil => exact ⟨[], rfl⟩
  | cons op rest ih =>
    obtain ⟨turned, here⟩ := each op
    obtain ⟨ops, same⟩ := ih
    exact ⟨turned :: ops, by rw [map_cons, map_cons, here, same]⟩

theorem askedApply_operations (target : OperationTarget) (opts : Option ApplyTargetOptions) :
    ∃ ops : List Operation, askedApply target opts = ops.map .operation := by
  unfold askedApply
  cases target.operationTargetArtifacts with
  | some artifacts => exact exists_operations (fun op => by cases op <;> exact ⟨_, rfl⟩) artifacts.applyPlan
  | none =>
    cases target.renderApply opts with
    | ok ops => exact ⟨ops, rfl⟩
    | error => exact ⟨[], rfl⟩

theorem askedDelete_operations (target : OperationTarget) (opts : Option DeleteTargetOptions) :
    ∃ ops : List Operation, askedDelete target opts = ops.map .operation := by
  unfold askedDelete
  cases target.operationTargetArtifacts with
  | some artifacts => exact exists_operations (fun op => by cases op <;> exact ⟨_, rfl⟩) artifacts.deletePlan
  | none =>
    cases target.renderDelete opts with
    | ok ops => exact ⟨ops, rfl⟩
    | error => exact ⟨[], rfl⟩

theorem precomputedApply_carried (carries : CarriesApply target opts)
    (precomputed : precomputedApplyOperations target opts = some entries) : entries = askedApply target opts := by
  cases artifacts : target.operationTargetArtifacts with
  | none => simp [precomputedApplyOperations, artifacts] at precomputed
  | some found =>
    simp only [precomputedApplyOperations, artifacts, Option.map_some, Option.some.injEq] at precomputed
    subst precomputed
    simp only [askedApply, artifacts]
    apply map_congr_left
    intro op member
    cases op with
    | apply effect =>
      obtain ⟨_, rfl, covers⟩ := carries found artifacts effect member
      simp [applyInput_covered covers, entry]
    | _ => rfl

/-- Options the recorder copies into a delete as they were asked to be put over it, when those
the call gave cover what the delete has. -/
def Copies (given recorded asked : Option DeleteTargetOptions) : Prop :=
  ∀ base, (∀ named, given = some named → named.Covers base) →
    ((recorded.bind fun options => deleteOptions options.toDeleteOptions) <|> base) = overridden asked base

theorem precomputedDelete_carried (carries : CarriesDelete target given) (copies : Copies given recorded asked)
    (precomputed : precomputedDeleteOperations target recorded = some entries) :
    entries = askedDelete target asked := by
  cases artifacts : target.operationTargetArtifacts with
  | none => simp [precomputedDeleteOperations, artifacts] at precomputed
  | some found =>
    simp only [precomputedDeleteOperations, artifacts, Option.map_some, Option.some.injEq] at precomputed
    subst precomputed
    simp only [askedDelete, artifacts]
    apply map_congr_left
    intro op member
    cases op with
    | delete effect =>
      obtain ⟨unbound, covers⟩ := carries found artifacts effect member
      have kept := copies effect.options covers
      obtain ⟨_, _, connection, _⟩ := effect
      have unbound' : connection = none := unbound
      subst unbound'
      simp [kept]
    | _ => rfl

theorem absorbs_renderApply (carries : CarriesApply target opts)
    (rendered : recorder.renderApplyTarget target opts = .ok after) :
    Recorder.Absorbs (askedApply target opts) recorder after := by
  unfold Recorder.renderApplyTarget at rendered
  cases precomputed : precomputedApplyOperations target opts with
  | some =>
    simp only [precomputed, Except.ok.injEq] at rendered
    subst rendered
    obtain ⟨ops, asked⟩ := askedApply_operations target opts
    rw [precomputedApply_carried carries precomputed, asked]
    exact absorbs_merge recorder ops
  | none =>
    have artifacts : target.operationTargetArtifacts = none := by
      simpa [precomputedApplyOperations] using precomputed
    simp only [precomputed] at rendered
    obtain ⟨ops, out, rendered⟩ := bind_ok rendered
    cases rendered
    simp only [askedApply, artifacts, out]
    exact absorbs_merge recorder ops

theorem absorbs_renderDelete (carries : CarriesDelete target given) (copies : Copies given recorded asked)
    (passes : target.operationTargetArtifacts = none → recorded = asked)
    (rendered : recorder.renderDeleteTarget target recorded = .ok after) :
    Recorder.Absorbs (askedDelete target asked) recorder after := by
  unfold Recorder.renderDeleteTarget at rendered
  cases precomputed : precomputedDeleteOperations target recorded with
  | some =>
    simp only [precomputed, Except.ok.injEq] at rendered
    subst rendered
    obtain ⟨ops, eq⟩ := askedDelete_operations target asked
    rw [precomputedDelete_carried carries copies precomputed, eq]
    exact absorbs_merge recorder ops
  | none =>
    have artifacts : target.operationTargetArtifacts = none := by
      simpa [precomputedDeleteOperations] using precomputed
    have passed := passes artifacts
    subst passed
    simp only [precomputed] at rendered
    obtain ⟨ops, out, rendered⟩ := bind_ok rendered
    cases rendered
    simp only [askedDelete, artifacts, out]
    exact absorbs_merge recorder ops

/-- `resources.deleteTarget` copies its options. -/
theorem copies_self (opts : Option DeleteTargetOptions) : Copies opts opts opts := by
  intro base covers
  cases opts with
  | none => simp [overridden]
  | some named => simpa [overridden] using deleteOptions_covered (covers named rfl)

/-- `scope.delete` recognizes the options it is given, or they name nothing it could copy. -/
theorem copies_recognized (opts : Option DeleteTargetOptions) :
    Copies opts (opts.filter (·.isDeleteTargetOptions)) (opts.filter (·.namesAny)) := by
  intro base covers
  cases opts with
  | none => simp [overridden]
  | some named =>
    by_cases recognized : named.isDeleteTargetOptions = true
    · have any : named.namesAny = true := by simp [DeleteTargetOptions.namesAny, recognized]
      simpa [Option.filter, recognized, any, overridden] using deleteOptions_covered (covers named rfl)
    have nothing : named.namesAny = false := by
      simp [DeleteTargetOptions.namesAny, recognized, (covers named rfl).preconditions]
    simp [Option.filter, recognized, nothing, overridden]

end

section
variable {recorder after : Recorder}

theorem absorbs_applyPlan (recorder : Recorder) (carries : plan.Carries) :
    Recorder.Absorbs plan.asked recorder (recorder.applyPlan plan) := by
  have applies : ∀ input ∈ plan.apply.getD [] ++ plan.resources.getD [], input.normalized = input.asked := by
    intro input member
    cases input with
    | operation effect => rfl
    | object resource =>
      simp [normalized, ApplyOperationInput.asked, carries.applies resource member]
  have deletes : ∀ input ∈ plan.delete.getD [], input.normalized = input.asked := by
    intro input member
    cases input with
    | operation effect => rfl
    | reference ref =>
      simp [DeleteOperationInput.normalized, DeleteOperationInput.asked, carries.deletes ref member]
  have patches : ∀ entry ∈ (plan.patch.getD []).map Subtype.val, entry.kind = "patch" ∨ entry.kind = "status" := by
    intro entry member
    obtain ⟨tagged, -, rfl⟩ := mem_map.mp member
    simpa using tagged.property
  have buckets := ((((absorbs_apply recorder _ applies).trans (absorbs_patch _ _ patches)).trans
    (absorbs_delete _ _ deletes)).trans (absorbs_events _ (plan.events.getD []))).trans
    (absorbs_finalizers _ (plan.finalizers.getD []))
  rw [OperationPlanInput.asked, carries.targets, nil_append]
  cases requeued : plan.requeue with
  | none =>
    rw [Option.map_none, Option.toList_none, append_nil]
    refine ⟨buckets.entries, ?_, buckets.patches⟩
    simpa [applyPlan, requeued] using buckets.requeue
  | some policy =>
    have requeue := buckets.trans (absorbs_requeue _ policy)
    refine ⟨requeue.entries, ?_, requeue.patches⟩
    simpa [applyPlan, requeued] using requeue.requeue

theorem absorbs_following {Options : Type} (recorder : Recorder) {companion : Option (Companion Options)}
    (carries : Carries companion) : Recorder.Absorbs (Companion.asked companion) recorder
      (recorder.applyFollowing (followingPlan companion)) := by
  cases companion with
  | none => exact .refl recorder
  | some companion =>
    cases companion with
    | options => exact .refl recorder
    | plan following =>
      have kept := carries following rfl
      by_cases known : following.isOperationPlan = true
      · rw [if_pos known] at kept
        simpa [Companion.asked, plan?, followingPlan, Option.filter, known,
          applyFollowing] using absorbs_applyPlan recorder kept
      · rw [if_neg known] at kept
        simpa [Companion.asked, plan?, followingPlan, Option.filter, known,
          applyFollowing, kept] using Recorder.Absorbs.refl recorder

theorem absorbs_foldlM {α : Type} {step : Recorder → α → Except String Recorder}
    {asked : α → List Entry} {items : List α} (taken : items.foldlM step recorder = .ok after)
    (each : ∀ item ∈ items, ∀ before after, step before item = .ok after →
      Recorder.Absorbs (asked item) before after) : Recorder.Absorbs (items.flatMap asked) recorder after := by
  induction items generalizing recorder with
  | nil =>
    obtain rfl : recorder = after := Except.ok.inj taken
    exact .refl recorder
  | cons item rest ih =>
    rw [foldlM_cons] at taken
    obtain ⟨middle, out, taken⟩ := bind_ok taken
    have first := each item (by simp) recorder middle out
    exact first.trans (ih taken fun other member => each other (by simp [member]))

theorem absorbs_applyObject (recorder : Recorder) (carries : resource.kind = "apply" → opts.isSome) :
    Recorder.Absorbs [.operation (.apply (opts.elim { resource := resource } (·.onto { resource := resource })))]
      recorder { recorder with apply := recorder.apply ++ [applyInput resource opts] } := by
  cases opts with
  | none =>
    have other : resource.kind ≠ "apply" := fun bare => by simpa using carries bare
    exact absorbs_apply recorder [.object resource] (by simp [normalized, ApplyOperationInput.asked, other])
  | some named =>
    have covers : named.Covers { resource := resource } :=
      ⟨by simp, by simp, by simp, rfl, rfl⟩
    have rebuilt := applyInput_covered covers
    rw [rebuilt]
    exact absorbs_apply recorder [.operation _] (by simp [normalized, ApplyOperationInput.asked])

theorem absorbs_pushDelete (recorder : Recorder) (op : DeleteOperation) :
    Recorder.Absorbs [.operation (.delete op)] recorder (recorder.pushDelete op) :=
  absorbs_delete recorder [.operation ⟨.operation (.delete op), by simp [Entry.kind, Operation.kind]⟩]
    (by simp [DeleteOperationInput.normalized, DeleteOperationInput.asked])

theorem absorbs_applyValue (carries : value.Carries) (applied : recorder.applyValue value = .ok after)
    : Recorder.Absorbs value.asked recorder after := by
  cases value with
  | object resource opts =>
    simp only [applyValue, Except.ok.injEq] at applied
    subst applied
    have absorbed := absorbs_applyObject recorder carries
    cases opts with
    | none => exact absorbed
    | some named =>
      by_cases known : named.isApplyTargetOptions = true
      · simpa [ApplyValue.asked, Option.filter, known] using absorbed
      have nothing : named.onto { resource := resource } = { resource := resource } := by
        simp only [ApplyTargetOptions.isApplyTargetOptions, Bool.or_eq_true,
          Option.isSome_iff_ne_none, not_or, not_not] at known
        obtain ⟨⟨⟨manager, force⟩, owner⟩, ownership⟩ := known
        simp [ApplyTargetOptions.onto, manager, force, owner, ownership, whenTruthy]
      simpa [ApplyValue.asked, Option.filter, known, nothing] using absorbed
  | target => exact absorbs_renderApply carries applied
  | targets =>
    obtain ⟨each, following⟩ := carries
    obtain ⟨middle, out, applied⟩ := bind_ok applied
    cases applied
    have rendered := absorbs_foldlM out fun target member before after =>
      absorbs_renderApply (each target member)
    exact rendered.trans (absorbs_following middle following)
  | plan input =>
    simp only [applyValue, Except.ok.injEq] at applied
    subst applied
    exact absorbs_applyPlan recorder carries

private theorem passes_of (passes : PassesOptions target opts) (rendered : target.operationTargetArtifacts = none) :
    opts.filter (·.isDeleteTargetOptions) = opts.filter (·.namesAny) := by
  cases opts with
  | none => rfl
  | some named => simp [Option.filter, passes rendered named rfl]

private theorem deleteInput_asked (ref : ObjectRef)
    (unguarded : ∀ named, opts = some named → named.preconditions = none) :
    deleteInput ref opts = { ref := ref, options := overridden opts none } := by
  have covers : ∀ named, opts = some named → named.Covers none := fun named given =>
    ⟨unguarded named given, by simp⟩
  have copied := copies_self opts none covers
  simpa [deleteInput] using copied

theorem absorbs_deleteValue (carries : value.Carries) (deleted : recorder.deleteValue value = .ok after)
    : Recorder.Absorbs value.asked recorder after := by
  cases value with
  | reference ref opts =>
    simp only [Recorder.deleteValue, Except.ok.injEq] at deleted
    subst deleted
    have copied : deleteInput ref (opts.filter (·.isDeleteTargetOptions)) =
        { ref := ref, options := overridden opts none } := by
      cases opts with
      | none => rfl
      | some named =>
        by_cases known : named.isDeleteTargetOptions = true
        · simpa [Option.filter, known] using deleteInput_asked ref carries
        have nothing : named.toDeleteOptions = {} := by
          simp only [DeleteTargetOptions.isDeleteTargetOptions, Bool.or_eq_true,
            Option.isSome_iff_ne_none, not_or, not_not] at known
          obtain ⟨⟨-, _⟩, _⟩ := known
          have unguarded := carries named rfl
          obtain ⟨⟨_, _, _⟩, _⟩ := named
          simp_all
        simp [Option.filter, known, deleteInput, overridden, DeleteOptions.onto, nothing]
    rw [copied]
    exact absorbs_pushDelete recorder _
  | target chosen opts =>
    obtain ⟨covered, passes⟩ := carries
    exact absorbs_renderDelete covered (copies_recognized opts) (passes_of passes) deleted
  | targets chosen companion =>
    obtain ⟨each, following⟩ := carries
    have passed : Companion.deleteOptions companion =
        (Companion.options? companion).filter (·.isDeleteTargetOptions) := by
      cases companion with
      | none => rfl
      | some companion => cases companion <;> rfl
    obtain ⟨middle, out, deleted⟩ := bind_ok deleted
    cases deleted
    have rendered := absorbs_foldlM out fun target member before after merged =>
      absorbs_renderDelete (each target member).1 (copies_recognized (Companion.options? companion))
        (passes_of (each target member).2) (passed ▸ merged)
    exact rendered.trans (absorbs_following middle following)

theorem absorbs_perform (carries : call.Carries) (performed : recorder.perform call = .ok after) :
    Recorder.Absorbs call.asked recorder after := by
  cases call with
  | apply surface value =>
    obtain ⟨middle, out, performed⟩ := bind_ok performed
    cases performed
    exact (absorbs_applyValue carries out).answered surface
  | applyGraph surface rendered =>
    cases rendered with
    | error =>
      cases surface with
      | scope => simp [perform] at performed
      | context =>
        cases performed
        exact .refl recorder
    | ok ops =>
      simp only [perform, Except.ok.injEq] at performed
      subst performed
      exact (absorbs_merge recorder ops).answered surface
  | delete surface value =>
    obtain ⟨_, out, performed⟩ := bind_ok performed
    cases performed
    have absorbed := absorbs_deleteValue carries out
    cases value with
    | reference => exact absorbed
    | target => exact absorbed.answered surface
    | targets => exact absorbed.answered surface
  | noop =>
    cases performed
    exact (Recorder.Absorbs.refl recorder).answered .context
  | resourcesApply =>
    cases performed
    exact absorbs_applyObject recorder carries
  | resourcesApplyTarget => exact absorbs_renderApply carries performed
  | resourcesDelete ref =>
    cases performed
    rw [deleteInput_asked ref carries]
    exact absorbs_pushDelete recorder _
  | resourcesDeleteTarget target opts =>
    exact absorbs_renderDelete carries (copies_self opts) (fun _ => rfl) performed
  | patch =>
    cases performed
    exact absorbs_patch recorder [_] (by simp [Entry.kind, Operation.kind])
  | setStatus =>
    cases performed
    exact absorbs_patch recorder [_] (by simp [Entry.kind, Operation.kind])
  | event op =>
    cases performed
    exact absorbs_events recorder [⟨.operation (.event op), _⟩]
  | finalizer op =>
    cases performed
    exact absorbs_finalizers recorder [⟨.operation (.finalizer op), _⟩]
  | requeue policy =>
    cases performed
    exact absorbs_requeue recorder policy
  | draft status =>
    cases performed
    exact ⟨(Recorder.Absorbs.refl recorder).entries, rfl, id⟩
  | connectionApply connection resource opts =>
    cases performed
    exact absorbs_apply recorder [.operation (remoteApplyInput resource connection opts)]
      (by simp [normalized, ApplyOperationInput.asked])
  | connectionPatch =>
    cases performed
    exact absorbs_patch recorder [_] (by simp [Entry.kind, Operation.kind])
  | connectionDelete _ _ opts =>
    cases performed
    have covers : DeleteTargetOptions.Covers ⟨opts.toDeleteOptions, none⟩ none :=
      ⟨carries, by simp⟩
    have copied : deleteOptions opts.toDeleteOptions = opts.toDeleteOptions.onto none := by
      simpa using deleteOptions_covered covers
    simp only [Call.asked, ← copied]
    exact absorbs_pushDelete recorder _

theorem absorbs_performAll (carries : ∀ call ∈ calls, call.Carries)
    (performed : recorder.performAll calls = .ok after) :
    Recorder.Absorbs (calls.flatMap Call.asked) recorder after :=
  absorbs_foldlM performed fun call member _ _ => absorbs_perform (carries call member)

end

section
variable {recorder after : Recorder}

def SameDraft (before after : Recorder) : Prop :=
  after.status = before.status ∧ after.statusSnapshot = before.statusSnapshot

theorem sameDraft_mergeEntry (recorder : Recorder) (entry : Entry) :
    SameDraft recorder (recorder.mergeEntry entry) := by
  unfold Recorder.mergeEntry
  split
  · exact ⟨rfl, rfl⟩
  · exact ⟨rfl, rfl⟩
  split
  · split <;> exact ⟨rfl, rfl⟩
  · split_ifs <;> exact ⟨rfl, rfl⟩

theorem sameDraft_merge (recorder : Recorder) (entries : List Entry) :
    SameDraft recorder (recorder.mergeNormalizedPlan entries) := by
  induction entries generalizing recorder with
  | nil => exact ⟨rfl, rfl⟩
  | cons entry rest ih =>
    obtain ⟨status, snap⟩ := sameDraft_mergeEntry recorder entry
    obtain ⟨later_status, later_snapshot⟩ := ih (recorder.mergeEntry entry)
    exact ⟨later_status.trans status, later_snapshot.trans snap⟩

theorem sameDraft_renderApply (rendered : recorder.renderApplyTarget target opts = .ok after)
    : SameDraft recorder after := by
  unfold Recorder.renderApplyTarget at rendered
  split at rendered
  · cases rendered
    exact sameDraft_merge recorder _
  obtain ⟨_, _, rendered⟩ := bind_ok rendered
  cases rendered
  exact sameDraft_merge recorder _

theorem sameDraft_renderDelete (rendered : recorder.renderDeleteTarget target opts = .ok after)
    : SameDraft recorder after := by
  unfold Recorder.renderDeleteTarget at rendered
  split at rendered
  · cases rendered
    exact sameDraft_merge recorder _
  obtain ⟨_, _, rendered⟩ := bind_ok rendered
  cases rendered
  exact sameDraft_merge recorder _

theorem sameDraft_foldlM {targets : List OperationTarget} {render : Recorder → OperationTarget → Except String Recorder}
    (rendered : targets.foldlM render recorder = .ok after)
    (each : ∀ before after target, render before target = .ok after → SameDraft before after) :
    SameDraft recorder after := by
  induction targets generalizing recorder with
  | nil =>
    obtain rfl : recorder = after := Except.ok.inj rendered
    exact ⟨rfl, rfl⟩
  | cons target rest ih =>
    rw [foldlM_cons] at rendered
    obtain ⟨middle, out, rendered⟩ := bind_ok rendered
    obtain ⟨status, snap⟩ := each recorder middle target out
    obtain ⟨later_status, later_snapshot⟩ := ih rendered
    exact ⟨later_status.trans status, later_snapshot.trans snap⟩

theorem drafted_following {Options : Type} (recorder : Recorder) (companion : Option (Companion Options)) :
    (recorder.applyFollowing (followingPlan companion)).status =
        Record.assign recorder.status ((plan? companion).bind (·.status) |>.getD []) ∧
      (recorder.applyFollowing (followingPlan companion)).statusSnapshot = recorder.statusSnapshot := by
  cases companion with
  | none => exact ⟨rfl, rfl⟩
  | some companion =>
    cases companion with
    | options => exact ⟨rfl, rfl⟩
    | plan following =>
      by_cases known : following.isOperationPlan = true
      · simp [followingPlan, plan?, Option.filter, known, applyFollowing, applyPlan]
      have unchanged : following.status = none := by
        simp only [OperationPlanInput.isOperationPlan, Bool.or_eq_true,
          Option.isSome_iff_ne_none, not_or, not_not] at known
        exact known.1.1.1
      simp [followingPlan, plan?, Option.filter, known, applyFollowing, unchanged]

theorem drafted_applyValue (applied : recorder.applyValue value = .ok after) (surface : Surface)
    : after.status = (Call.apply surface value).drafted recorder.status ∧
      after.statusSnapshot = recorder.statusSnapshot := by
  cases value with
  | object =>
    cases applied
    exact ⟨rfl, rfl⟩
  | target => exact sameDraft_renderApply applied
  | targets chosen companion =>
    obtain ⟨middle, out, applied⟩ := bind_ok applied
    cases applied
    obtain ⟨status, snap⟩ := sameDraft_foldlM out fun before after target => sameDraft_renderApply
    obtain ⟨following, kept⟩ := drafted_following middle companion
    exact ⟨by rw [following, status]; rfl, kept.trans snap⟩
  | plan input =>
    cases applied
    exact ⟨rfl, rfl⟩

theorem drafted_deleteValue (deleted : recorder.deleteValue value = .ok after) (surface : Surface)
    : after.status = (Call.delete surface value).drafted recorder.status ∧
      after.statusSnapshot = recorder.statusSnapshot := by
  cases value with
  | reference =>
    cases deleted
    exact ⟨rfl, rfl⟩
  | target => exact sameDraft_renderDelete deleted
  | targets chosen companion =>
    obtain ⟨middle, out, deleted⟩ := bind_ok deleted
    cases deleted
    obtain ⟨status, snap⟩ := sameDraft_foldlM out fun before after target => sameDraft_renderDelete
    obtain ⟨following, kept⟩ := drafted_following middle companion
    exact ⟨by rw [following, status]; rfl, kept.trans snap⟩

theorem reports_perform (performed : recorder.perform call = .ok after) :
    (after.status, after.statusSnapshot) = call.reports (recorder.status, recorder.statusSnapshot) := by
  cases call with
  | apply surface value =>
    obtain ⟨middle, out, performed⟩ := bind_ok performed
    cases performed
    obtain ⟨status, snap⟩ := drafted_applyValue out surface
    cases surface with
    | scope => simp [reports, answers, answered, status, snap]
    | context => simp [reports, answers, answered, result, ← status]
  | applyGraph surface rendered =>
    cases rendered with
    | error =>
      cases surface with
      | scope => simp [perform] at performed
      | context =>
        cases performed
        rfl
    | ok ops =>
      simp only [perform, Except.ok.injEq] at performed
      subst performed
      obtain ⟨status, snap⟩ := sameDraft_merge recorder (ops.map .operation)
      cases surface with
      | scope => simp [reports, drafted, answers, answered, status, snap]
      | context => simp [reports, drafted, answers, answered, result, status]
  | delete surface value =>
    obtain ⟨_, out, performed⟩ := bind_ok performed
    cases performed
    obtain ⟨status, snap⟩ := drafted_deleteValue out surface
    cases surface with
    | scope =>
      cases value <;> simp [reports, answers, deleteAnswered, answered, status, snap]
    | context =>
      cases value with
      | reference => simp [reports, answers, deleteAnswered, status, snap]
      | _ =>
        simp [reports, answers, deleteAnswered, answered, result, ← status]
  | noop =>
    cases performed
    rfl
  | resourcesApplyTarget =>
    obtain ⟨status, snap⟩ := sameDraft_renderApply performed
    simp [reports, drafted, answers, status, snap]
  | resourcesDeleteTarget =>
    obtain ⟨status, snap⟩ := sameDraft_renderDelete performed
    simp [reports, drafted, answers, status, snap]
  | _ =>
    cases performed
    rfl

theorem reports_performAll (performed : recorder.performAll calls = .ok after) :
    (after.status, after.statusSnapshot) = calls.foldl reports (recorder.status, recorder.statusSnapshot) := by
  induction calls generalizing recorder with
  | nil =>
    obtain rfl : recorder = after := Except.ok.inj performed
    rfl
  | cons call rest ih =>
    rw [Recorder.performAll, foldlM_cons] at performed
    obtain ⟨_, out, performed⟩ := bind_ok performed
    rw [ih performed, reports_perform out]
    rfl

theorem finalDraft_eq (calls : List Call) (draft : List (String × Json) × Json) :
    (calls.foldl reports draft).1 = finalDraft draft.1 calls := by
  induction calls generalizing draft with
  | nil => rfl
  | cons call rest ih => exact ih (call.reports draft)

end

theorem filled_getD {α : Type} (bucket : List α) : (filled bucket).getD [] = bucket := by
  unfold filled
  split <;> simp [*]

/-- `result()` filters nothing out of a typed patch bucket. -/
theorem patchLike_map {patches : List Entry} (typed : ∀ entry ∈ patches, entry.kind = "patch" ∨ entry.kind = "status") :
    (patches.filterMap patchLike).map Subtype.val = patches := by
  induction patches with
  | nil => rfl
  | cons entry rest ih =>
    have kept : patchLike entry = some ⟨entry, by simpa using typed entry (by simp)⟩ := by
      simp [patchLike, typed entry (by simp)]
    rw [filterMap_cons_some kept, map_cons, ih fun other member => typed other (by simp [member])]

theorem splitFinalizers_entries (finalizers : List FinalizerEntry) :
    ((finalizers.filter FinalizerEntry.adds).map Subtype.val : Multiset Entry)
        + ↑((finalizers.filter fun finalizer => !FinalizerEntry.adds finalizer).map Subtype.val) =
      ↑(finalizers.map Subtype.val) := by
  rw [coe_add, ← map_append, Multiset.coe_eq_coe]
  exact (filter_append_perm FinalizerEntry.adds finalizers).map Subtype.val

/-- A result of the recorder is emitted with everything in its buckets, its status and its
requeue. -/
theorem normalized_entries {recorder : Recorder} (typed : recorder.PatchesTyped) :
    (normalizeHandlerResult recorder.result.1 : Multiset Entry) = recorder.entries
        + ↑(if canonicalJson (.object recorder.status) ≠ recorder.statusSnapshot then
            [Entry.operation (.status { status := .object recorder.status })] else [])
        + ↑(recorder.requeue.map fun policy => Entry.operation (.requeue policy)).toList := by
  have patches : ((if recorder.patch = [] then none
      else some (recorder.patch.filterMap patchLike)).getD []).map Subtype.val = recorder.patch := by
    by_cases none_there : recorder.patch = []
    · simp [none_there]
    · simpa [none_there] using patchLike_map typed
  have status : (((if canonicalJson (.object recorder.status) ≠ recorder.statusSnapshot then
        some (Json.object recorder.status) else none).filter truthyJson).map fun status =>
          Entry.operation (.status { status := status })).toList =
      if canonicalJson (.object recorder.status) ≠ recorder.statusSnapshot then
        [Entry.operation (.status { status := .object recorder.status })] else [] := by
    split <;> simp [Option.filter, truthyJson]
  have finalizers := splitFinalizers_entries recorder.finalizers
  simp only [normalizeHandlerResult, result, filled_getD, patches, status, Recorder.entries, ← coe_add, ← finalizers]
  abel

theorem own_status_iff {draft reported origin : Json} (status : Entry) :
    (if draft ≠ reported then [status] else []) = (if draft ≠ origin then [status] else []) ↔
      reported = origin ∨ (draft ≠ reported ∧ draft ≠ origin) := by
  by_cases unreported : draft = reported
  · subst unreported
    by_cases same : draft = origin <;> simp [same]
  by_cases same : draft = origin
  · subst same
    simp [unreported, eq_comm]
  · simp [unreported, same]

/-- When every call carries what it asks for, the plan of a handler that returns nothing
carries every recorded effect exactly once, the last requeue, and the final status draft
exactly when it differs from the status at the start, if and only if the draft is kept. -/
theorem recorded_effects_delivered (style : Surface) (status : Option (List (String × Json)))
    (calls : List Call) (plan : List Entry) (carries : ∀ call ∈ calls, call.Carries)
    (emitted : invokeRunnableHandler style status calls none = .ok plan) :
    Delivers (status.getD []) calls plan ↔ DraftKept (status.getD []) calls := by
  unfold invokeRunnableHandler at emitted
  cases performed : (Recorder.start status).performAll calls with
  | error => simp [performed, bind, Except.bind] at emitted
  | ok recorder =>
    have plan_eq : normalizeHandlerResult recorder.result.1 = plan := by
      cases style <;> simpa [performed, bind, Except.bind, pure, Except.pure, mergeHandlerResults] using emitted
    subst plan_eq
    have absorbed := absorbs_performAll carries performed
    have typed : recorder.PatchesTyped :=
      absorbed.patches (by simp [Recorder.PatchesTyped, Recorder.start])
    have reported := reports_performAll performed
    have draft : recorder.status = finalDraft (status.getD []) calls := by
      rw [← finalDraft_eq calls (status.getD [], canonicalJson (.object (status.getD [])))]
      exact congrArg Prod.fst reported
    have snapshot : recorder.statusSnapshot = reportedDraft (status.getD []) calls :=
      congrArg Prod.snd reported
    have none_yet : (Recorder.start status).entries = 0 := rfl
    have no_requeue : (Recorder.start status).requeue = none := rfl
    rw [Delivers, normalized_entries typed, absorbed.entries, absorbed.requeue, none_yet,
      no_requeue, zero_add, add_left_inj, add_right_inj, draft, snapshot, ownStatus, DraftKept,
      ← own_status_iff (Entry.operation (.status { status := .object (finalDraft (status.getD []) calls) }))]
    constructor
    · intro same
      split_ifs at same ⊢ <;> simp_all
    · intro same
      rw [same]

private def configMap : KubernetesObject where
  apiVersion := "v1"
  kind := "ConfigMap"
  metadata := { name := "artifact-target", namespaceName := some "media" }

private def artifactTarget : OperationTarget where
  operationTargetArtifacts := some ⟨[.apply { resource := configMap }], []⟩
  renderApply _ := .error "adapter path must not run"
  renderDelete _ := .error "adapter path must not run"

private def carriedCalls : List Call :=
  [.apply .context (.target artifactTarget (some { fieldManager := some "artifact-manager" })),
    .event { type := .normal, reason := "Applied", message := "applied" },
    .draft [("phase", .string "Ready")]]

private theorem carriedCalls_carry : ∀ call ∈ carriedCalls, call.Carries := by
  intro call member
  simp only [carriedCalls, mem_cons, not_mem_nil, or_false] at member
  rcases member with rfl | rfl | rfl
  · intro artifacts found op applied
    obtain rfl : (⟨[.apply { resource := configMap }], []⟩ : LoweringArtifacts) = artifacts :=
      Option.some.inj found
    obtain rfl : op = { resource := configMap } := by simpa using applied
    exact ⟨_, rfl, ⟨by simp, by simp, by simp, rfl, rfl⟩⟩
  · trivial
  · trivial

theorem carriedCalls_delivered : ∃ plan, invokeRunnableHandler .scope none carriedCalls none = .ok plan ∧
      Delivers [] carriedCalls plan := by
  refine ⟨_, rfl, (recorded_effects_delivered .scope none carriedCalls _ carriedCalls_carry rfl).mpr ?_⟩
  exact Or.inl (by decide +kernel)

/-- An operation target applied without options is not in the plan at all. -/
theorem target_without_options_dropped :
    ∃ plan, invokeRunnableHandler .scope none [.apply .scope (.target artifactTarget none)] none =
        .ok plan ∧ ¬ Delivers [] [.apply .scope (.target artifactTarget none)] plan :=
  ⟨[], rfl, by decide +kernel⟩

end Applik8s.Operators
