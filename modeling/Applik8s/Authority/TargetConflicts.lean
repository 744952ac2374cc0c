import Applik8s.Authority.AuthorizeProofs

/-! Exact targets that contradict each other in one authorization. The intersection of
scopes is empty only when one of them normalizes to `none`; it never compares two
targets. A contradiction therefore denies a request only when some other gate does. -/
namespace Applik8s.Authority

mutual
/-- The conjuncts of a scope, through every nesting of `and`. -/
def flatConjuncts : ScopeExpression → List ScopeExpression
  | .and expressions => allConjuncts expressions
  | expression => [expression]

def allConjuncts : List ScopeExpression → List ScopeExpression
  | [] => []
  | expression :: rest => flatConjuncts expression ++ allConjuncts rest
end

/-- Two exact targets of different models, or of one model with a shared identity field
bound to different values. -/
def contradicts : ScopeExpression → ScopeExpression → Bool
  | .target model identity, .target model' identity' =>
    model ≠ model' || identity.any fun field => identity'.any fun field' => field.1 = field'.1 && field.2 ≠ field'.2
  | _, _ => false

/-- Some two conjuncts of the scopes are contradictory targets. -/
def conflicting (scopes : List ScopeExpression) : Bool :=
  (allConjuncts scopes).any fun left => (allConjuncts scopes).any fun right => contradicts left right

def AuthorizationRequest.aimedAt (request : AuthorizationRequest) (target : ScopeExpression) :
    AuthorizationRequest := { request with target }

section
variable {req : AuthorizationRequest} {target other : ScopeExpression}
variable (same : (normalizeApplicationScope target).isNone = (normalizeApplicationScope other).isNone)
include same

private theorem isNone_aimedAt (scopes : List ScopeExpression) :
    (intersectApplicationScopes (requestScopes (req.aimedAt target) ++ scopes)).isNone =
      (intersectApplicationScopes (requestScopes (req.aimedAt other) ++ scopes)).isNone := by
  rw [Bool.eq_iff_iff, isNone_intersect, isNone_intersect]
  simp [requestScopes, AuthorizationRequest.aimedAt, same]

private theorem selectAuthority_aimedAt : selectAuthority dates now (req.aimedAt target) state =
      selectAuthority dates now (req.aimedAt other) state := by
  unfold selectAuthority
  congr 1
  simp only [isNone_aimedAt same]
  rfl

private theorem passesGates_aimedAt (gates : PassesGates dates now (req.aimedAt target) state) :
    PassesGates dates now (req.aimedAt other) state := by
  have selected : selectAuthority dates now (req.aimedAt target) state =
      selectAuthority dates now (req.aimedAt other) state := selectAuthority_aimedAt same
  refine ⟨gates.admitted, ?_, ?_, ?_⟩
  · rw [← selected]
    exact gates.matched
  · have contributed : (intersectApplicationScopes (contributedScopes dates now (req.aimedAt target) state)).isNone =
        (intersectApplicationScopes (contributedScopes dates now (req.aimedAt other) state)).isNone := by
      unfold contributedScopes
      rw [isNone_aimedAt same, selected]
    intro scope inside
    by_contra empty
    rw [isNone_intersect.mpr ⟨scope, inside, Bool.not_eq_false _ ▸ empty⟩, isNone_intersect] at contributed
    obtain ⟨part, member, closed⟩ := contributed
    rw [gates.scopes part member] at closed
    cases closed
  · rw [← selected]
    exact gates.use

/-- Whether a request is authorized depends on its target only through whether the target
is empty: any two exact targets are authorized alike. -/
theorem allows_aimedAt :
    allows dates now world (req.aimedAt target) = allows dates now world (req.aimedAt other) := by
  rw [Bool.eq_iff_iff, allows_iff, allows_iff]
  exact ⟨passesGates_aimedAt same, passesGates_aimedAt same.symm⟩

end

def orderTarget (id : String) : ScopeExpression := .target "orders" [("id", .string id)]

end Applik8s.Authority
