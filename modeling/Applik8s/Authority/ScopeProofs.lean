import Applik8s.Authority.Scope

/-! What a scope expression denotes, independently of how it is normalized or
compared: the valuations of its atoms that satisfy it. Normalization keeps the
denotation, a provable subset is a subset, and an intersection is empty in the
sense of the code exactly when one of its members is. -/
namespace Applik8s.Authority
open List
open ScopeExpression (isNone isAll conjuncts disjuncts)

/-- A truth value for every atomic expression: targets, comparisons, memberships,
relationships, transports, audiences and trusted-context tests. -/
abbrev Valuation := ScopeExpression → Prop

mutual
def Satisfies (valuation : Valuation) : ScopeExpression → Prop
  | .all => True
  | .none _ => False
  | .and expressions => SatisfiesAll valuation expressions
  | .or expressions => SatisfiesAny valuation expressions
  | .not expression => ¬ Satisfies valuation expression
  | atom => valuation atom

def SatisfiesAll (valuation : Valuation) : List ScopeExpression → Prop
  | [] => True
  | expression :: rest => Satisfies valuation expression ∧ SatisfiesAll valuation rest

def SatisfiesAny (valuation : Valuation) : List ScopeExpression → Prop
  | [] => False
  | expression :: rest => Satisfies valuation expression ∨ SatisfiesAny valuation rest
end

def denotation (expression : ScopeExpression) : Set Valuation :=
  {valuation | Satisfies valuation expression}

variable {valuation : Valuation} {expression maximum : ScopeExpression}

@[simp] theorem satisfies_all : Satisfies valuation .all ↔ True := by simp [Satisfies]

@[simp] theorem satisfies_none : Satisfies valuation (.none reason) ↔ False := by
  simp [Satisfies]

@[simp] theorem satisfies_and :
    Satisfies valuation (.and exprs) ↔ ∀ expr ∈ exprs, Satisfies valuation expr := by
  rw [Satisfies]
  induction exprs with
  | nil => simp [SatisfiesAll]
  | cons first rest ih => simp [SatisfiesAll, ih]

@[simp] theorem satisfies_or :
    Satisfies valuation (.or exprs) ↔ ∃ expr ∈ exprs, Satisfies valuation expr := by
  rw [Satisfies]
  induction exprs with
  | nil => simp [SatisfiesAny]
  | cons first rest ih => simp [SatisfiesAny, ih]

private theorem eq_all_of_isAll (whole : expression.isAll = true) : expression = .all := by
  cases expression <;> simp_all [isAll]

private theorem not_satisfies_of_isNone (valuation : Valuation) (empty : expr.isNone = true) :
    ¬ Satisfies valuation expr := by
  cases expr <;> simp_all [isNone]

private theorem satisfies_conjuncts :
    (∀ part ∈ conjuncts expr, Satisfies valuation part) ↔ Satisfies valuation expr := by
  cases expr <;> simp [conjuncts]

private theorem satisfies_disjuncts :
    (∃ part ∈ disjuncts expr, Satisfies valuation part) ↔ Satisfies valuation expr := by
  cases expr <;> simp [disjuncts]

theorem satisfies_combineAnd :
    Satisfies valuation (combineAnd normalized) ↔ ∀ part ∈ normalized, Satisfies valuation part := by
  have dropped : (∀ part ∈ normalized.filter (fun part => ¬ part.isAll), Satisfies valuation part) ↔
      ∀ part ∈ normalized, Satisfies valuation part := by
    simp only [mem_filter]
    constructor
    · intro kept part member
      by_cases whole : part.isAll = true
      · simp [eq_all_of_isAll whole]
      · exact kept part ⟨member, by simpa using whole⟩
    · exact fun kept part member => kept part member.1
  rw [← dropped]
  unfold combineAnd
  generalize normalized.filter (fun part => ¬ part.isAll) = filtered
  dsimp only
  split
  · rename_i empty found
    have inside := mem_of_find?_eq_some found
    have none := not_satisfies_of_isNone valuation (find?_some found)
    exact ⟨fun holds => absurd holds none, fun kept => absurd (kept empty inside) none⟩
  · split <;> simp [deduplicateScopes, mem_distinctValues]

theorem satisfies_combineOr :
    Satisfies valuation (combineOr normalized) ↔ ∃ part ∈ normalized, Satisfies valuation part := by
  have dropped : (∃ part ∈ normalized.filter (fun part => ¬ part.isNone), Satisfies valuation part) ↔
      ∃ part ∈ normalized, Satisfies valuation part := by
    simp only [mem_filter]
    constructor
    · rintro ⟨part, member, holds⟩
      exact ⟨part, member.1, holds⟩
    rintro ⟨part, member, holds⟩
    refine ⟨part, ⟨member, ?_⟩, holds⟩
    by_contra empty
    exact not_satisfies_of_isNone valuation (by simpa using empty) holds
  rw [← dropped]
  unfold combineOr
  generalize normalized.filter (fun part => ¬ part.isNone) = filtered
  dsimp only
  split
  · rename_i whole
    obtain ⟨part, member, everything⟩ := any_eq_true.mp whole
    simp only [satisfies_all, true_iff]
    exact ⟨part, member, by simp [eq_all_of_isAll everything]⟩
  · split <;> simp [deduplicateScopes, mem_distinctValues]

theorem satisfies_normalize (expr : ScopeExpression) :
    Satisfies valuation (normalizeApplicationScope expr) ↔ Satisfies valuation expr := by
  induction expr using normalizeApplicationScope.induct with
  | case1 exprs ih =>
    rw [normalizeApplicationScope, satisfies_combineAnd]
    simp only [mem_map, mem_attach, true_and, Subtype.exists, forall_exists_index, satisfies_and]
    constructor
    · intro kept expr member
      refine satisfies_conjuncts.mp fun part inside => ?_
      have flattened : part ∈ exprs.flatMap conjuncts :=
        mem_flatMap.mpr ⟨expr, member, inside⟩
      exact (ih part flattened).mp (kept _ part flattened rfl)
    · rintro kept _ part flattened rfl
      obtain ⟨expr, member, inside⟩ := mem_flatMap.mp flattened
      exact (ih part flattened).mpr (satisfies_conjuncts.mpr (kept expr member) part inside)
  | case2 exprs ih =>
    rw [normalizeApplicationScope, satisfies_combineOr]
    simp only [mem_map, mem_attach, true_and, Subtype.exists, satisfies_or]
    constructor
    · rintro ⟨_, ⟨part, flattened, rfl⟩, holds⟩
      obtain ⟨expr, member, inside⟩ := mem_flatMap.mp flattened
      exact ⟨expr, member, satisfies_disjuncts.mp ⟨part, inside, (ih part flattened).mp holds⟩⟩
    rintro ⟨expr, member, holds⟩
    obtain ⟨part, inside, holds⟩ := satisfies_disjuncts.mpr holds
    have flattened : part ∈ exprs.flatMap disjuncts :=
      mem_flatMap.mpr ⟨expr, member, inside⟩
    exact ⟨_, ⟨part, flattened, rfl⟩, (ih part flattened).mpr holds⟩
  | case3 _ notAnd notOr =>
    rw [normalizeApplicationScope]
    · exact notAnd
    · exact notOr

theorem satisfies_of_provableSubset (cand maximum : ScopeExpression)
    (provable : isProvableScopeSubset cand maximum = true) (holds : Satisfies valuation cand) :
    Satisfies valuation maximum := by
  fun_induction isProvableScopeSubset cand maximum with
  | case1 _ _ immediate =>
    rcases Bool.or_eq_true_iff.mp immediate with whole | empty
    · simp [eq_all_of_isAll whole]
    · exact absurd holds (not_satisfies_of_isNone valuation empty)
  | case2 => exact holds
  | case3 branches maximum _ _ ih =>
    obtain ⟨branch, member, holds⟩ := satisfies_or.mp holds
    have each : ∀ branch ∈ branches, isProvableScopeSubset branch maximum = true := by
      simpa using provable
    exact ih branch member (each branch member) holds
  | case4 cand branches _ _ _ ih =>
    obtain ⟨branch, member, subset⟩ : ∃ branch ∈ branches, isProvableScopeSubset cand branch = true := by
      simpa using provable
    exact satisfies_or.mpr ⟨branch, member, ih branch member subset holds⟩
  | case5 cand restrictions _ _ _ ih =>
    have each : ∀ restriction ∈ restrictions, isProvableScopeSubset cand restriction = true := by
      simpa using provable
    exact satisfies_and.mpr fun restriction member => ih restriction member (each restriction member) holds
  | case6 restrictions maximum _ _ _ _ ih =>
    obtain ⟨restriction, member, subset⟩ :
        ∃ restriction ∈ restrictions, isProvableScopeSubset restriction maximum = true := by
      simpa using provable
    exact ih restriction member subset (satisfies_and.mp holds restriction member)
  | case7 => exact absurd provable (by simp)

/-- What `assertScopeNotBroader` rests on. Atoms of the same canonical text are one value
here (`sameJson_iff`), so a valuation is any reading that gives equal texts equal truth. -/
theorem scope_algebra_is_sound (candidate maximum : ScopeExpression) :
    denotation (normalizeApplicationScope candidate) = denotation candidate ∧
      (isProvableScopeSubset (normalizeApplicationScope candidate) (normalizeApplicationScope maximum) = true →
        denotation candidate ⊆ denotation maximum) := by
  constructor
  · ext valuation
    exact satisfies_normalize candidate
  intro provable valuation holds
  have narrower : Satisfies valuation (normalizeApplicationScope candidate) :=
    (satisfies_normalize candidate).mpr holds
  have wider := satisfies_of_provableSubset _ _ provable narrower
  exact (satisfies_normalize maximum).mp wider

/-- One tenant's posts, written with a nested `and` and a vacuous `all`, stay within the
tenant's or the owner's. -/
theorem tenant_posts_are_within_tenant :
    let tenant := ScopeExpression.compare "tenant" .eq (.literal (.string "acme"))
    let owner := ScopeExpression.compare "owner" .eq (.reference .principal "id")
    let post := ScopeExpression.target "Post" [("id", .string "7")]
    denotation (.and [.all, .and [tenant, post]]) ⊆ denotation (.or [.none "closed", .or [tenant, owner]]) :=
  (scope_algebra_is_sound _ _).2 (by decide +kernel)

theorem isNone_combineAnd : (combineAnd normalized).isNone = true ↔ ∃ part ∈ normalized, part.isNone = true := by
  unfold combineAnd
  dsimp only
  split
  · rename_i empty found
    have inside := mem_of_find?_eq_some found
    exact ⟨fun _ => ⟨empty, (mem_filter.mp inside).1, find?_some found⟩, fun _ => find?_some found⟩
  rename_i absent
  have kept : ∀ part ∈ normalized, part.isNone = false := by
    intro part member
    by_contra empty
    have empty : part.isNone = true := by simpa using empty
    have retained : part ∈ normalized.filter fun part => ¬ part.isAll :=
      mem_filter.mpr ⟨member, by cases part <;> simp_all [isNone, isAll]⟩
    exact find?_eq_none.mp absent part retained empty
  have nowhere : ¬ ∃ part ∈ normalized, part.isNone = true := by
    rintro ⟨part, member, empty⟩
    simp [kept part member] at empty
  rw [iff_false_right nowhere]
  split
  · simp [isNone]
  · rename_i only single
    have member : only ∈ normalized := (mem_filter.mp (single ▸ mem_singleton_self only)).1
    simp [kept only member]
  · simp [isNone]

theorem isNone_normalize_and : (normalizeApplicationScope (.and exprs)).isNone = true ↔
      ∃ part ∈ exprs.flatMap conjuncts, (normalizeApplicationScope part).isNone = true := by
  rw [normalizeApplicationScope, isNone_combineAnd]
  simp only [mem_map, mem_attach, true_and, Subtype.exists]
  constructor
  · rintro ⟨_, ⟨part, member, rfl⟩, empty⟩
    exact ⟨part, member, empty⟩
  · rintro ⟨part, member, empty⟩
    exact ⟨_, ⟨part, member, rfl⟩, empty⟩

/-- An expression normalizes to `none` exactly when one of its conjuncts does. -/
theorem isNone_conjuncts (expr : ScopeExpression) :
    (∃ part ∈ conjuncts expr, (normalizeApplicationScope part).isNone = true) ↔
      (normalizeApplicationScope expr).isNone = true := by
  induction expr with
  | and _ ih =>
    rw [isNone_normalize_and]
    simp only [conjuncts, mem_flatMap]
    constructor
    · rintro ⟨part, member, empty⟩
      obtain ⟨inner, inside, empty⟩ := (ih part member).mpr empty
      exact ⟨inner, ⟨part, member, inside⟩, empty⟩
    · rintro ⟨inner, ⟨part, member, inside⟩, empty⟩
      exact ⟨part, member, (ih part member).mp ⟨inner, inside, empty⟩⟩
  | _ => simp [conjuncts]

/-- The intersection is empty in the sense of the code exactly when one of the
intersected scopes is: emptiness is never found by combining two of them. -/
theorem isNone_intersect : (intersectApplicationScopes exprs).isNone = true ↔
      ∃ expr ∈ exprs, (normalizeApplicationScope expr).isNone = true := by
  rw [intersectApplicationScopes, isNone_normalize_and]
  simp only [mem_flatMap]
  constructor
  · rintro ⟨part, ⟨expr, member, inside⟩, empty⟩
    exact ⟨expr, member, (isNone_conjuncts expr).mp ⟨part, inside, empty⟩⟩
  rintro ⟨expr, member, empty⟩
  obtain ⟨part, inside, empty⟩ := (isNone_conjuncts expr).mpr empty
  exact ⟨part, ⟨expr, member, inside⟩, empty⟩

end Applik8s.Authority
