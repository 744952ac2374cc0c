import Applik8s.Platform

/-! The closed scope language of `application-operation-authority.ts`: expressions,
normalization, intersection, validation, and the structural subset test of
`authority.ts`. The `Application` prefix of the source's type names is dropped.

Two JSON values with the same canonical text are the same value, so the comparisons
of canonical JSON in the source are equality here. The fields of a target's identity
are listed in the key order that the canonical text sorts them into. The types leave
no room for executable members, so the check for them has nothing to find. -/
namespace Applik8s.Authority
open List

inductive OperationTransport where
  | direct | http | mcp | workflow | event | controlPlane
  deriving DecidableEq

instance : ToString OperationTransport where
  toString
    | .direct => "direct" | .http => "http" | .mcp => "mcp"
    | .workflow => "workflow" | .event => "event" | .controlPlane => "control-plane"

inductive ScopeScalar where
  | string (value : String)
  | number (value : Rat)
  | boolean (value : Bool)
  | null
  deriving DecidableEq

inductive ReferenceSource where
  | target | principal | trustedContext | input | event | resource
  deriving DecidableEq

inductive ScopeValue where
  | literal (value : ScopeScalar)
  | reference (source : ReferenceSource) (path : String)
  deriving DecidableEq

inductive CompareOperator where
  | eq | ne | lt | lte | gt | gte
  deriving DecidableEq

inductive ContextOperator where
  | eq | isIn
  deriving DecidableEq

/-- The value of a `trusted-context` scope: one value or a list of them. -/
inductive ContextValue where
  | one (value : ScopeValue)
  | many (values : List ScopeValue)
  deriving DecidableEq

inductive ScopeExpression where
  | all
  | none (reason : String)
  | target (model : String) (identity : List (String × ScopeScalar))
  | and (expressions : List ScopeExpression)
  | or (expressions : List ScopeExpression)
  | not (expression : ScopeExpression)
  | compare (field : String) (operator : CompareOperator) (value : ScopeValue)
  | isIn (field : String) (values : List ScopeValue)
  | relationship (source name destination : String) (target : ScopeExpression)
  | transport (bindingId : String) (transport : OperationTransport)
  | audience (audience : String)
  | trustedContext (key : String) (operator : ContextOperator) (value : ContextValue)

namespace ScopeExpression

mutual
def sameJson : ScopeExpression → ScopeExpression → Bool
  | .all, .all => true
  | .none reason, .none reason' => reason = reason'
  | .target model identity, .target model' identity' => model = model' && identity = identity'
  | .and expressions, .and expressions' => sameJsonAll expressions expressions'
  | .or expressions, .or expressions' => sameJsonAll expressions expressions'
  | .not expression, .not expression' => sameJson expression expression'
  | .compare field operator value, .compare field' operator' value' =>
    field = field' && operator = operator' && value = value'
  | .isIn field values, .isIn field' values' => field = field' && values = values'
  | .relationship source name destination scope, .relationship source' name' destination' scope' =>
    source = source' && name = name' && destination = destination' && sameJson scope scope'
  | .transport bindingId kind, .transport bindingId' kind' => bindingId = bindingId' && kind = kind'
  | .audience name, .audience name' => name = name'
  | .trustedContext key operator value, .trustedContext key' operator' value' =>
    key = key' && operator = operator' && value = value'
  | _, _ => false

def sameJsonAll : List ScopeExpression → List ScopeExpression → Bool
  | [], [] => true
  | first :: rest, first' :: rest' => sameJson first first' && sameJsonAll rest rest'
  | _, _ => false
end

@[induction_eliminator]
theorem inductionOn {motive : ScopeExpression → Prop} (all : motive .all) (none : ∀ reason, motive (.none reason))
    (target : ∀ model identity, motive (.target model identity))
    (and : ∀ exprs, (∀ expr ∈ exprs, motive expr) → motive (.and exprs))
    (or : ∀ exprs, (∀ expr ∈ exprs, motive expr) → motive (.or exprs))
    (not : ∀ expr, motive expr → motive (.not expr))
    (compare : ∀ field operator value, motive (.compare field operator value))
    (isIn : ∀ field values, motive (.isIn field values))
    (relationship : ∀ source name dest scope, motive scope → motive (.relationship source name dest scope))
    (transport : ∀ bindingId kind, motive (.transport bindingId kind)) (audience : ∀ name, motive (.audience name))
    (trustedContext : ∀ key operator value, motive (.trustedContext key operator value))
    (expr : ScopeExpression) : motive expr :=
  match expr with
  | .all => all
  | .none reason => none reason
  | .target model identity => target model identity
  | .and exprs => and exprs fun member _ =>
    inductionOn all none target and or not compare isIn relationship transport audience trustedContext member
  | .or exprs => or exprs fun member _ =>
    inductionOn all none target and or not compare isIn relationship transport audience trustedContext member
  | .not inner => not inner
    (inductionOn all none target and or not compare isIn relationship transport audience trustedContext inner)
  | .compare field operator value => compare field operator value
  | .isIn field values => isIn field values
  | .relationship source name dest scope => relationship source name dest scope
    (inductionOn all none target and or not compare isIn relationship transport audience trustedContext scope)
  | .transport bindingId kind => transport bindingId kind
  | .audience name => audience name
  | .trustedContext key operator value => trustedContext key operator value

private theorem sameJsonAll_iff (each : ∀ left ∈ lefts, ∀ right, sameJson left right = true ↔ left = right)
    (rights : List ScopeExpression) : sameJsonAll lefts rights = true ↔ lefts = rights := by
  induction lefts generalizing rights with
  | nil => cases rights <;> simp [sameJsonAll]
  | cons left lefts ih =>
    have rest := ih fun left member => each left (mem_cons_of_mem _ member)
    cases rights <;> simp [sameJsonAll, each left mem_cons_self, rest]

theorem sameJson_iff (left right : ScopeExpression) : sameJson left right = true ↔ left = right := by
  induction left generalizing right with
  | and exprs ih | or exprs ih => cases right <;> simp [sameJson, sameJsonAll_iff ih]
  | not _ ih => cases right <;> simp [sameJson, ih]
  | relationship _ _ _ _ ih => cases right <;> simp [sameJson, ih, and_assoc]
  | _ => cases right <;> simp [sameJson, and_assoc]

instance : DecidableEq ScopeExpression := fun left right =>
  decidable_of_iff _ (sameJson_iff left right)

/-- `expression.kind === 'none'`. -/
def isNone : ScopeExpression → Bool
  | .none _ => true
  | _ => false

def isAll : ScopeExpression → Bool
  | .all => true
  | _ => false

/-- What an expression contributes to an enclosing `and`. -/
def conjuncts : ScopeExpression → List ScopeExpression
  | .and expressions => expressions
  | expression => [expression]

/-- What an expression contributes to an enclosing `or`. -/
def disjuncts : ScopeExpression → List ScopeExpression
  | .or expressions => expressions
  | expression => [expression]

theorem sizeOf_conjunct_lt (member : expr ∈ exprs.flatMap conjuncts) :
    sizeOf expr < sizeOf (ScopeExpression.and exprs) := by
  obtain ⟨child, within, inner⟩ := mem_flatMap.mp member
  have outer := sizeOf_lt_of_mem within
  cases child with
  | and inside =>
    have deeper := sizeOf_lt_of_mem (show expr ∈ inside from inner)
    simp only [ScopeExpression.and.sizeOf_spec] at *
    omega
  | _ =>
    rw [conjuncts, mem_singleton] at inner
    · subst inner
      simp only [ScopeExpression.and.sizeOf_spec]
      omega
    · simp

theorem sizeOf_disjunct_lt (member : expr ∈ exprs.flatMap disjuncts) :
    sizeOf expr < sizeOf (ScopeExpression.or exprs) := by
  obtain ⟨child, within, inner⟩ := mem_flatMap.mp member
  have outer := sizeOf_lt_of_mem within
  cases child with
  | or inside =>
    have deeper := sizeOf_lt_of_mem (show expr ∈ inside from inner)
    simp only [ScopeExpression.or.sizeOf_spec] at *
    omega
  | _ =>
    rw [disjuncts, mem_singleton] at inner
    · subst inner
      simp only [ScopeExpression.or.sizeOf_spec]
      omega
    · simp

end ScopeExpression

open ScopeExpression (isNone isAll conjuncts disjuncts sizeOf_conjunct_lt sizeOf_disjunct_lt)
variable (normalized : List ScopeExpression) (expressions : List ScopeExpression)

/-- The expressions without repetition, in the order of first occurrence. -/
def deduplicateScopes : List ScopeExpression :=
  distinctValues expressions

/-- The end of `normalizeApplicationScope` for an `and` whose members are normalized. -/
def combineAnd (normalized : List ScopeExpression) : ScopeExpression :=
  let filtered := normalized.filter fun candidate => ¬ candidate.isAll
  match filtered.find? isNone with
  | some empty => empty
  | none =>
    match filtered with
    | [] => .all
    | [only] => only
    | several => .and (deduplicateScopes several)

/-- The end of `normalizeApplicationScope` for an `or` whose members are normalized. -/
def combineOr : ScopeExpression :=
  let filtered := normalized.filter fun candidate => ¬ candidate.isNone
  if filtered.any isAll then .all
  else
    match filtered with
    | [] => .none "scope union is empty"
    | [only] => only
    | several => .or (deduplicateScopes several)

def normalizeApplicationScope : ScopeExpression → ScopeExpression
  | .and expressions =>
    combineAnd ((expressions.flatMap conjuncts).attach.map fun ⟨expression, _⟩ =>
      normalizeApplicationScope expression)
  | .or expressions =>
    combineOr ((expressions.flatMap disjuncts).attach.map fun ⟨expression, _⟩ => normalizeApplicationScope expression)
  | expression => expression
termination_by expression => sizeOf expression
decreasing_by
  · exact sizeOf_conjunct_lt ‹_›
  · exact sizeOf_disjunct_lt ‹_›

def intersectApplicationScopes : ScopeExpression :=
  normalizeApplicationScope (.and expressions)

/-- Conservative structural implication: it recognizes narrowing through conjunction
and unions and refuses everything it cannot prove. -/
def isProvableScopeSubset (candidate maximum : ScopeExpression) : Bool :=
  if maximum.isAll || candidate.isNone then true
  else if candidate = maximum then true
  else
    match candidate, maximum with
    | .or branches, maximum => branches.attach.all fun ⟨branch, _⟩ => isProvableScopeSubset branch maximum
    | candidate, .or branches => branches.attach.any fun ⟨branch, _⟩ => isProvableScopeSubset candidate branch
    | candidate, .and restrictions =>
      restrictions.attach.all fun ⟨restriction, _⟩ => isProvableScopeSubset candidate restriction
    | .and restrictions, maximum =>
      restrictions.attach.any fun ⟨restriction, _⟩ => isProvableScopeSubset restriction maximum
    | _, _ => false
termination_by sizeOf candidate + sizeOf maximum

/-- A finding of `validateApplicationScope`; its code is always `AUTHORITY_INVALID_SCOPE`. -/
structure AuthorityDiagnostic where
  message : String
  path : String
  deriving DecidableEq

def validateScopePath (value path : String) : List AuthorityDiagnostic :=
  let segments := (value.toList.splitOn '.').map String.ofList
  let invalid := segments.any fun segment =>
    segment = "" || segment = "__proto__" || segment = "prototype" || segment = "constructor"
  if !blank value && !invalid then []
  else
    let shown := if value = "" then "<empty>" else value
    [⟨s!"Authority scope path {shown} is invalid.", path⟩]

def validateScopeValue (value : ScopeValue) (path : String) : List AuthorityDiagnostic :=
  match value with
  | .literal _ => []
  | .reference _ reference => validateScopePath reference s!"{path}.path"

/-- The findings for a list of values, each under its index. -/
def validateScopeValues (path : String) (values : List ScopeValue) : List AuthorityDiagnostic :=
  values.zipIdx.flatMap fun entry => validateScopeValue entry.1 s!"{path}[{entry.2}]"

mutual
def validateApplicationScope : ScopeExpression → String → List AuthorityDiagnostic
  | .all, _ => []
  | .none reason, path =>
    if !blank reason then [] else [⟨"A deny-all scope must explain why it is empty.", s!"{path}.reason"⟩]
  | .target model identity, path =>
    if !blank model && identity ≠ [] then []
    else [⟨"An exact target scope requires a model and at least one identity field.", path⟩]
  | .and expressions, path =>
    if expressions.isEmpty then
      [⟨"and scope composition must contain at least one expression.", path⟩]
    else validateBranches expressions path 0
  | .or expressions, path =>
    if expressions.isEmpty then
      [⟨"or scope composition must contain at least one expression.", path⟩]
    else validateBranches expressions path 0
  | .not expression, path => validateApplicationScope expression s!"{path}.expression"
  | .compare field _ value, path =>
    validateScopePath field s!"{path}.field" ++ validateScopeValue value s!"{path}.value"
  | .isIn field values, path =>
    validateScopePath field s!"{path}.field" ++
      if values = [] then
        [⟨"A membership scope must contain at least one value.", s!"{path}.values"⟩]
      else validateScopeValues s!"{path}.values" values
  | .relationship source name destination target, path =>
    validateScopePath source s!"{path}.from" ++ validateScopePath name s!"{path}.name" ++
      validateScopePath destination s!"{path}.to" ++
      validateApplicationScope target s!"{path}.target"
  | .transport bindingId _, path =>
    if !blank bindingId then []
    else [⟨"A transport scope requires a stable binding id.", s!"{path}.bindingId"⟩]
  | .audience audience, path =>
    if !blank audience then [] else [⟨"An audience scope cannot be empty.", s!"{path}.audience"⟩]
  | .trustedContext key _ value, path =>
    let values := match value with
      | .one value => [value]
      | .many values => values
    validateScopePath key s!"{path}.key" ++
      if values = [] then
        [⟨"A trusted-context membership scope must contain at least one value.", s!"{path}.value"⟩]
      else validateScopeValues s!"{path}.value" values

def validateBranches : List ScopeExpression → String → Nat → List AuthorityDiagnostic
  | [], _, _ => []
  | expression :: rest, path, index =>
    validateApplicationScope expression s!"{path}.expressions[{index}]" ++ validateBranches rest path (index + 1)
end
end Applik8s.Authority
