import Applik8s.Authority.Scope

/-! When one pass of `normalizeApplicationScope` is enough. It splices the branches of a composition before it
normalizes them, and lets a sole branch take the place of the composition before it drops the repeated ones, so its
result may have to be normalized again. -/
namespace Applik8s.Authority
open List Nat
open ScopeExpression (isNone isAll conjuncts disjuncts sizeOf_conjunct_lt sizeOf_disjunct_lt)

/-- The two compositions, which normalization treats alike. -/
inductive ScopeComposition where
  | and | or
  deriving DecidableEq

namespace ScopeComposition

def compose : ScopeComposition → List ScopeExpression → ScopeExpression
  | .and, expressions => .and expressions
  | .or, expressions => .or expressions

/-- What an expression contributes to the composition that it is a branch of. -/
def parts : ScopeComposition → ScopeExpression → List ScopeExpression
  | .and => conjuncts
  | .or => disjuncts

/-- A branch that the composition holds as well without. -/
def neutral : ScopeComposition → ScopeExpression → Bool
  | .and => isAll
  | .or => isNone

def absorbing : ScopeComposition → ScopeExpression → Bool
  | .and => isNone
  | .or => isAll

def unit : ScopeComposition → ScopeExpression
  | .and => .all
  | .or => .none "scope union is empty"

/-- The end of `normalizeApplicationScope` for a composition whose branches are normalized. -/
def combine (composition : ScopeComposition) (normalized : List ScopeExpression) : ScopeExpression :=
  let filtered := normalized.filter fun candidate => ¬ composition.neutral candidate
  match filtered.find? composition.absorbing with
  | some decides => decides
  | none =>
    match filtered with
    | [] => composition.unit
    | [only] => only
    | several => composition.compose (deduplicateScopes several)

/-- `combine` as it would reach a normal form: what the branches have become is spliced, and a sole branch is looked for
among the different ones. -/
def gather (composition : ScopeComposition) (normal : List ScopeExpression) : ScopeExpression :=
  let filtered := (normal.flatMap composition.parts).filter fun candidate => ¬ composition.neutral candidate
  match filtered.find? composition.absorbing with
  | some decides => decides
  | none =>
    match deduplicateScopes filtered with
    | [] => composition.unit
    | [only] => only
    | several => composition.compose several

end ScopeComposition

open ScopeComposition (compose parts neutral absorbing unit combine gather)

/-- What an expression amounts to: its branches flattened to any depth, without constants and repetitions. -/
def normalForm : ScopeExpression → ScopeExpression
  | .and expressions =>
    ScopeComposition.and.gather ((expressions.flatMap conjuncts).attach.map fun ⟨expression, _⟩ => normalForm expression)
  | .or expressions =>
    ScopeComposition.or.gather ((expressions.flatMap disjuncts).attach.map fun ⟨expression, _⟩ => normalForm expression)
  | expression => expression
termination_by expression => sizeOf expression
decreasing_by
  · exact sizeOf_conjunct_lt ‹_›
  · exact sizeOf_disjunct_lt ‹_›

/-- Every composition keeps the condition, outside of negations and relationships. -/
def Throughout (keeps : ScopeComposition → List ScopeExpression → Prop) : ScopeExpression → Prop
  | .and expressions => keeps .and expressions ∧ ∀ expression ∈ expressions, Throughout keeps expression
  | .or expressions => keeps .or expressions ∧ ∀ expression ∈ expressions, Throughout keeps expression
  | _ => True

/-- No composition has a branch of its own kind, or only one branch. -/
def Normal : ScopeExpression → Prop :=
  Throughout fun composition expressions => expressions.length ≠ 1 ∧
    ∀ expression ∈ expressions, ∀ inner, expression ≠ composition.compose inner

def ScopeComposition.remaining (composition : ScopeComposition) (branches : List ScopeExpression) :
    List ScopeExpression :=
  branches.filter fun branch => ¬ composition.neutral (normalForm branch)

/-- At most one branch remains, or none that remains amounts to a composition of the same kind and they do not all
amount to the same. -/
def ScopeComposition.Passes (composition : ScopeComposition) (branches : List ScopeExpression) : Prop :=
  (composition.remaining branches).length ≤ 1 ∨
    (∀ branch ∈ composition.remaining branches, ∀ inner, normalForm branch ≠ composition.compose inner) ∧
      ∃ one ∈ composition.remaining branches, ∃ two ∈ composition.remaining branches, normalForm one ≠ normalForm two

/-- A branch decides each composition of the expression, or its branches pass. -/
def OnePass : ScopeExpression → Prop
  | .and expressions =>
    (∃ branch ∈ expressions.flatMap conjuncts, (normalForm branch).isNone) ∨
      ScopeComposition.and.Passes (expressions.flatMap conjuncts) ∧
        ∀ branch ∈ expressions.flatMap conjuncts, ¬ (normalForm branch).isAll → OnePass branch
  | .or expressions =>
    (∃ branch ∈ expressions.flatMap disjuncts, (normalForm branch).isAll) ∨
      ScopeComposition.or.Passes (expressions.flatMap disjuncts) ∧
        ∀ branch ∈ expressions.flatMap disjuncts, ¬ (normalForm branch).isNone → OnePass branch
  | _ => True
termination_by expression => sizeOf expression
decreasing_by
  · rename_i inside _
    exact sizeOf_conjunct_lt (by simpa using inside)
  · rename_i inside _
    exact sizeOf_disjunct_lt (by simpa using inside)

variable {composition : ScopeComposition} {expression other : ScopeExpression}
  {expressions branches normal : List ScopeExpression}

/-! ### The definitions by composition -/

@[simp] theorem ScopeComposition.parts_compose : composition.parts (composition.compose expressions) = expressions := by
  cases composition <;> rfl

theorem ScopeComposition.parts_plain (plain : ∀ inner, expression ≠ composition.compose inner) :
    composition.parts expression = [expression] := by
  cases composition with
  | and =>
    cases expression with
    | and inner => exact absurd rfl (plain inner)
    | _ => rfl
  | or =>
    cases expression with
    | or inner => exact absurd rfl (plain inner)
    | _ => rfl

open ScopeComposition (Passes compose or parts_compose parts_plain remaining)

private theorem combineOr_eq : combineOr normalized = or.combine normalized := by
  let filtered := normalized.filter fun cand => ¬ cand.isNone
  change (if filtered.any isAll then ScopeExpression.all
    else
      match filtered with
      | [] => .none "scope union is empty"
      | [only] => only
      | several => .or (deduplicateScopes several)) =
    match filtered.find? isAll with
    | some decides => decides
    | none =>
      match filtered with
      | [] => .none "scope union is empty"
      | [only] => only
      | several => .or (deduplicateScopes several)
  cases found : filtered.find? isAll with
  | none =>
    have nowhere : filtered.any isAll = false := by
      rw [any_eq_false]
      exact find?_eq_none.mp found
    rw [nowhere]
    rfl
  | some whole =>
    have everywhere : filtered.any isAll = true :=
      any_eq_true.mpr ⟨whole, mem_of_find?_eq_some found, find?_some found⟩
    have all := find?_some found
    rw [everywhere]
    cases whole <;> first | rfl | cases all

theorem normalize_compose : normalizeApplicationScope (composition.compose expressions) =
    composition.combine ((expressions.flatMap composition.parts).map normalizeApplicationScope) := by
  cases composition with
  | and =>
    simp only [compose, normalizeApplicationScope, map_subtype, unattach_attach]
    rfl
  | or =>
    simp only [compose, normalizeApplicationScope, map_subtype, unattach_attach]
    exact combineOr_eq

theorem normalForm_compose : normalForm (composition.compose expressions) =
    composition.gather ((expressions.flatMap composition.parts).map normalForm) := by
  cases composition <;>
  · simp only [compose, normalForm, map_subtype, unattach_attach]
    rfl

theorem throughout_compose : Throughout keeps (comp.compose exprs) ↔
    keeps comp exprs ∧ ∀ expr ∈ exprs, Throughout keeps expr := by
  cases comp <;> simp [compose, Throughout]

theorem onePass_compose : OnePass (composition.compose expressions) ↔
    (∃ branch ∈ expressions.flatMap composition.parts, composition.absorbing (normalForm branch)) ∨
      composition.Passes (expressions.flatMap composition.parts) ∧ ∀ branch ∈ expressions.flatMap composition.parts,
          ¬ composition.neutral (normalForm branch) → OnePass branch := by
  cases composition <;> simp [compose, OnePass, parts, neutral, absorbing]

theorem plain_fixed (plain : ∀ comp inner, expr ≠ compose comp inner) :
    normalizeApplicationScope expr = expr ∧ normalForm expr = expr ∧
      Throughout keeps expr ∧ OnePass expr := by
  cases expr with
  | and inner => exact absurd rfl (plain .and inner)
  | or inner => exact absurd rfl (plain .or inner)
  | _ => simp [normalizeApplicationScope, normalForm, Throughout, OnePass]

theorem compositionInduction {motive : ScopeExpression → Prop} (composed : ∀ comp exprs,
      (∀ branch ∈ exprs.flatMap comp.parts, motive branch) → motive (compose comp exprs))
    (plain : ∀ expr, (∀ comp inner, expr ≠ compose comp inner) → motive expr)
    (expr : ScopeExpression) : motive expr := by
  induction size : sizeOf expr using Nat.strong_induction_on generalizing expr with
  | h bound ih =>
    subst size
    cases expr with
    | and exprs =>
      exact composed .and exprs fun branch member => ih _ (sizeOf_conjunct_lt member) branch rfl
    | or exprs =>
      exact composed .or exprs fun branch member => ih _ (sizeOf_disjunct_lt member) branch rfl
    | _ => exact plain _ fun comp inner => by cases comp <;> nofun

/-! ### Constants and repetitions -/

def ScopeExpression.constant (expression : ScopeExpression) : Bool := expression.isAll || expression.isNone

namespace ScopeComposition

theorem constant_eq (composition : ScopeComposition) (expression : ScopeExpression) :
    expression.constant = (composition.neutral expression || composition.absorbing expression) := by
  cases composition
  · rfl
  · exact Bool.or_comm _ _

theorem of_amount (comp : ScopeComposition) (amounts : expr.constant = false) :
    comp.neutral expr = false ∧ comp.absorbing expr = false := by
  rwa [comp.constant_eq, Bool.or_eq_false_iff] at amounts

theorem absorbing_of_neutral (comp : ScopeComposition)
    (drops : comp.neutral expr = true) : comp.absorbing expr = false := by
  cases comp <;> cases expr <;> first | rfl | cases drops

@[simp] theorem constant_unit : composition.unit.constant = true := by cases composition <;> rfl

@[simp] theorem constant_compose : (composition.compose expressions).constant = false := by
  cases composition <;> rfl

end ScopeComposition

theorem plain_of_constant (constant : expression.constant = true) (comp : ScopeComposition)
    (inner : List ScopeExpression) : expression ≠ comp.compose inner := by
  rintro rfl
  simp at constant

private theorem distinct_fold_nodup (values seen : List ScopeExpression) (distinct : seen.Nodup) :
    (values.foldl (fun seen value => if value ∈ seen then seen else seen ++ [value]) seen).Nodup := by
  induction values generalizing seen with
  | nil => exact distinct
  | cons value rest ih =>
    rw [foldl_cons]
    apply ih
    split
    · exact distinct
    next fresh =>
    refine nodup_append.mpr ⟨distinct, by simp, ?_⟩
    rintro _ among _ last rfl
    exact fresh (mem_singleton.mp last ▸ among)

private theorem distinct_fold_eq (values seen : List ScopeExpression) (distinct : (seen ++ values).Nodup) :
    values.foldl (fun seen value => if value ∈ seen then seen else seen ++ [value]) seen = seen ++ values := by
  induction values generalizing seen with
  | nil => simp
  | cons value rest ih =>
    have fresh : value ∉ seen := fun among =>
      (nodup_append.mp distinct).2.2 value among value mem_cons_self rfl
    rw [foldl_cons, if_neg fresh, ih]
    · simp
    · simpa using distinct

theorem mem_deduplicateScopes : expr ∈ deduplicateScopes exprs ↔ expr ∈ exprs :=
  mem_distinctValues

theorem deduplicateScopes_nodup (exprs : List ScopeExpression) : (deduplicateScopes exprs).Nodup :=
  distinct_fold_nodup exprs [] .nil

theorem deduplicateScopes_eq (distinct : exprs.Nodup) : deduplicateScopes exprs = exprs :=
  distinct_fold_eq exprs [] distinct

theorem one_lt_deduplicateScopes : 1 < (deduplicateScopes exprs).length ↔
    ∃ one ∈ exprs, ∃ two ∈ exprs, one ≠ two := by
  have distinct := deduplicateScopes_nodup exprs
  have members : ∀ expr, expr ∈ deduplicateScopes exprs ↔ expr ∈ exprs :=
    fun _ => mem_deduplicateScopes
  generalize deduplicateScopes exprs = several at *
  constructor
  · intro more
    match several, more with
    | one :: two :: rest, _ =>
      refine ⟨one, (members one).mp (by simp), two, (members two).mp (by simp), ?_⟩
      exact fun same => (nodup_cons.mp distinct).1 (by simp [same])
  rintro ⟨one, first, two, second, differ⟩
  have first := (members one).mpr first
  have second := (members two).mpr second
  match several with
  | [] => cases first
  | [only] =>
    rw [mem_singleton] at first second
    exact absurd (first.trans second.symm) differ
  | _ :: _ :: _ => simp

/-! ### What the ends of the two normalizations are -/

private theorem find?_kept (expressions : List ScopeExpression) :
    (expressions.filter fun cand => ¬ composition.neutral cand).find? composition.absorbing =
      expressions.find? composition.absorbing := by
  rw [find?_filter]
  congr 1
  funext cand
  cases drops : composition.neutral cand with
  | false => simp
  | true => simp [ScopeComposition.absorbing_of_neutral composition drops]

theorem combine_decided (found : normalized.find? composition.absorbing = some decides) :
    composition.combine normalized = decides := by
  unfold combine
  dsimp only
  rw [find?_kept, found]

theorem combine_open (nothing : normalized.find? composition.absorbing = none) : composition.combine normalized =
      match normalized.filter fun cand => ¬ composition.neutral cand with
      | [] => composition.unit
      | [only] => only
      | several => composition.compose (deduplicateScopes several) := by
  unfold combine
  dsimp only
  rw [find?_kept, nothing]

theorem gather_decided (found : (normal.flatMap composition.parts).find? composition.absorbing = some decides) :
    composition.gather normal = decides := by
  unfold gather
  dsimp only
  rw [find?_kept, found]

theorem gather_open (nothing : (normal.flatMap composition.parts).find? composition.absorbing = none) :
    composition.gather normal =
      match deduplicateScopes ((normal.flatMap composition.parts).filter fun cand =>
        ¬ composition.neutral cand) with
      | [] => composition.unit
      | [only] => only
      | several => composition.compose several := by
  unfold gather
  dsimp only
  rw [find?_kept, nothing]

theorem constant_of_kept (nothing : expressions.find? composition.absorbing = none)
    (kept : expression ∈ expressions.filter fun cand => ¬ composition.neutral cand) :
    expression.constant = false := by
  obtain ⟨member, _⟩ := mem_filter.mp kept
  have undecided := find?_eq_none.mp nothing expression member
  rw [composition.constant_eq]
  simp_all

theorem combine_amounts (nothing : normalized.find? composition.absorbing = none)
    (left : normalized.filter (fun cand => ¬ composition.neutral cand) ≠ []) :
    (composition.combine normalized).constant = false := by
  have kept : ∀ part ∈ normalized.filter (fun cand => ¬ composition.neutral cand), part.constant = false :=
    fun part => constant_of_kept nothing
  rw [combine_open nothing]
  generalize normalized.filter (fun cand => ¬ composition.neutral cand) = filtered at left kept
  match filtered with
  | [] => exact absurd rfl left
  | [only] => exact kept only mem_cons_self
  | _ :: _ :: _ => exact ScopeComposition.constant_compose

theorem gather_amounts (nothing : (normal.flatMap composition.parts).find? composition.absorbing = none)
    (left : (normal.flatMap composition.parts).filter (fun cand => ¬ composition.neutral cand) ≠ []) :
    (composition.gather normal).constant = false := by
  obtain ⟨part, among⟩ := exists_mem_of_ne_nil _ left
  have kept : ∀ part ∈ deduplicateScopes ((normal.flatMap composition.parts).filter fun cand =>
      ¬ composition.neutral cand), part.constant = false :=
    fun part among => constant_of_kept nothing (mem_deduplicateScopes.mp among)
  have some := mem_deduplicateScopes.mpr among
  rw [gather_open nothing]
  generalize deduplicateScopes _ = different at some kept
  match different with
  | [] => cases some
  | [only] => exact kept only mem_cons_self
  | _ :: _ :: _ => exact ScopeComposition.constant_compose

/-- What is the same of every composition in a normal form. -/
structure Tidy (composition : ScopeComposition) (expressions : List ScopeExpression) : Prop where
  several : 1 < expressions.length
  distinct : expressions.Nodup
  amount : ∀ expression ∈ expressions, expression.constant = false
  others : ∀ expression ∈ expressions, ∀ inner, expression ≠ composition.compose inner

theorem Throughout.imp (each : ∀ comp exprs, keeps comp exprs → keeps' comp exprs) (held : Throughout keeps expr) :
    Throughout keeps' expr := by
  induction expr with
  | and _ ih =>
    rw [Throughout] at held ⊢
    exact ⟨each _ _ held.1, fun member among => ih member among (held.2 member among)⟩
  | or _ ih =>
    rw [Throughout] at held ⊢
    exact ⟨each _ _ held.1, fun member among => ih member among (held.2 member among)⟩
  | _ => simp [Throughout]

theorem normal_of_tidy (tidy : Throughout Tidy expr) : Normal expr :=
  tidy.imp fun _ _ keeps => ⟨ne_of_gt keeps.several, keeps.others⟩

theorem tidy_parts (comp : ScopeComposition) (tidy : Throughout Tidy expr) :
    ∀ part ∈ comp.parts expr, (∀ inner, part ≠ comp.compose inner) ∧ Throughout Tidy part := by
  intro part inside
  by_cases composed : ∃ inner, expr = comp.compose inner
  · obtain ⟨_, rfl⟩ := composed
    rw [parts_compose] at inside
    obtain ⟨keeps, each⟩ := throughout_compose.mp tidy
    exact ⟨keeps.others part inside, each part inside⟩
  · have plain := not_exists.mp composed
    rw [parts_plain plain, mem_singleton] at inside
    subst inside
    exact ⟨plain, tidy⟩

theorem normal_fixed (tidy : Throughout Tidy expr) : normalizeApplicationScope expr = expr := by
  induction expr using compositionInduction with
  | composed comp exprs ih =>
    obtain ⟨keeps, each⟩ := throughout_compose.mp tidy
    have flat : exprs.flatMap comp.parts = exprs := by
      rw [flatMap_congr fun expr among => parts_plain (keeps.others expr among)]
      simp
    rw [flat] at ih
    have same : exprs.map normalizeApplicationScope = exprs := by
      rw [map_congr_left fun expr among => ih expr among (each expr among), map_id']
    have amount : ∀ expr ∈ exprs, comp.neutral expr = false ∧ comp.absorbing expr = false :=
      fun expr among => comp.of_amount (keeps.amount expr among)
    have nothing : exprs.find? comp.absorbing = none :=
      find?_eq_none.mpr fun expr among => by simp [(amount expr among).2]
    have all : exprs.filter (fun cand => ¬ comp.neutral cand) = exprs :=
      filter_eq_self.mpr fun expr among => by simp [(amount expr among).1]
    rw [normalize_compose, flat, same, combine_open nothing, all]
    match exprs, keeps.several, deduplicateScopes_eq keeps.distinct with
    | _ :: _ :: _, _, once => exact congrArg comp.compose once
  | plain expr plain =>
    have fixed : _ ∧ _ ∧ Throughout Tidy expr ∧ _ := plain_fixed plain
    exact fixed.1

theorem normalForm_tidy (expr : ScopeExpression) : Throughout Tidy (normalForm expr) := by
  induction expr using compositionInduction with
  | composed comp exprs ih =>
    rw [normalForm_compose]
    generalize exprs.flatMap comp.parts = branches at ih ⊢
    have inside : ∀ part ∈ (branches.map normalForm).flatMap comp.parts,
        (∀ inner, part ≠ comp.compose inner) ∧ Throughout Tidy part := by
      intro part among
      obtain ⟨_, mapped, within⟩ := mem_flatMap.mp among
      obtain ⟨branch, member, rfl⟩ := mem_map.mp mapped
      exact tidy_parts comp (ih branch member) part within
    cases found : ((branches.map normalForm).flatMap comp.parts).find? comp.absorbing with
    | some decides =>
      rw [gather_decided found]
      exact (inside decides (mem_of_find?_eq_some found)).2
    | none =>
      have kept : ∀ part ∈ deduplicateScopes (((branches.map normalForm).flatMap comp.parts).filter
          fun cand => ¬ comp.neutral cand), part.constant = false ∧
            (∀ inner, part ≠ comp.compose inner) ∧ Throughout Tidy part := by
        intro part among
        have kept := mem_deduplicateScopes.mp among
        exact ⟨constant_of_kept found kept, inside part (mem_filter.mp kept).1⟩
      have distinct := deduplicateScopes_nodup (((branches.map normalForm).flatMap comp.parts).filter
        fun cand => ¬ comp.neutral cand)
      rw [gather_open found]
      generalize deduplicateScopes _ = different at kept distinct
      match different with
      | [] => exact (plain_fixed (plain_of_constant ScopeComposition.constant_unit)).2.2.1
      | [only] => exact (kept only mem_cons_self).2.2
      | one :: two :: rest =>
        refine throughout_compose.mpr ⟨⟨by simp, distinct, fun part among => (kept part among).1,
          fun part among => (kept part among).2.1⟩, fun part among => (kept part among).2.2⟩
  | plain expr plain =>
    have fixed : _ ∧ normalForm expr = expr ∧ Throughout Tidy expr ∧ _ := plain_fixed plain
    rw [fixed.2.1]
    exact fixed.2.2.1

def Alike (one two : ScopeExpression) : Prop := one = two ∨ one.constant = false ∧ two.constant = false

theorem Alike.neutral (alike : Alike one two) (comp : ScopeComposition) :
    comp.neutral one = comp.neutral two ∧ comp.absorbing one = comp.absorbing two := by
  rcases alike with rfl | ⟨one, two⟩
  · exact ⟨rfl, rfl⟩
  · rw [comp.constant_eq] at one two
    simp_all

theorem find?_alike (comp : ScopeComposition)
    (alike : ∀ branch ∈ branches, Alike (normalizeApplicationScope branch) (normalForm branch)) :
    (branches.map normalizeApplicationScope).find? comp.absorbing =
      ((branches.map normalForm).flatMap comp.parts).find? comp.absorbing := by
  induction branches with
  | nil => rfl
  | cons branch rest ih =>
    obtain ⟨here, later⟩ := forall_mem_cons.mp alike
    rw [map_cons, map_cons, flatMap_cons, find?_append, ← ih later, find?_cons]
    by_cases composed : ∃ inner, normalForm branch = comp.compose inner
    · obtain ⟨inner, is⟩ := composed
      have same := (here.neutral comp).2
      have tidy := normalForm_tidy branch
      rw [is] at same tidy
      have nothing : inner.find? comp.absorbing = none := by
        refine find?_eq_none.mpr fun part among => ?_
        simp [(comp.of_amount ((throughout_compose.mp tidy).1.amount part among)).2]
      rw [same, (comp.of_amount ScopeComposition.constant_compose).2, is, parts_compose, nothing]
      rfl
    · rw [parts_plain (not_exists.mp composed), find?_cons]
      rcases here with same | ⟨amounts, amounts'⟩
      · rw [same]
        cases comp.absorbing (normalForm branch) <;> rfl
      · rw [(comp.of_amount amounts).2, (comp.of_amount amounts').2]
        rfl

theorem filter_alike (comp : ScopeComposition)
    (alike : ∀ branch ∈ branches, Alike (normalizeApplicationScope branch) (normalForm branch)) :
    (branches.map normalizeApplicationScope).filter (fun cand => ¬ comp.neutral cand) =
        (comp.remaining branches).map normalizeApplicationScope ∧
      ((branches.map normalForm).flatMap comp.parts).filter (fun cand => ¬ comp.neutral cand) =
        ((comp.remaining branches).map normalForm).flatMap comp.parts := by
  unfold remaining
  induction branches with
  | nil => exact ⟨rfl, rfl⟩
  | cons branch rest ih =>
    obtain ⟨here, later⟩ := forall_mem_cons.mp alike
    obtain ⟨left, right⟩ := ih later
    have same := (here.neutral comp).1
    have own : (comp.parts (normalForm branch)).filter (fun cand => ¬ comp.neutral cand) =
        if comp.neutral (normalForm branch) then [] else comp.parts (normalForm branch) := by
      by_cases composed : ∃ inner, normalForm branch = comp.compose inner
      · obtain ⟨inner, is⟩ := composed
        have tidy := normalForm_tidy branch
        rw [is] at tidy ⊢
        rw [(comp.of_amount ScopeComposition.constant_compose).1, parts_compose, if_neg (by simp), filter_eq_self]
        intro part among
        simp [(comp.of_amount ((throughout_compose.mp tidy).1.amount part among)).1]
      · rw [parts_plain (not_exists.mp composed)]
        cases drops : comp.neutral (normalForm branch) <;> simp [drops]
    rw [map_cons, map_cons, flatMap_cons, filter_append, own, right, filter_cons, same, left, filter_cons]
    cases comp.neutral (normalForm branch) <;> simp

theorem parts_ne_nil (comp : ScopeComposition) (tidy : Throughout Tidy expr) : comp.parts expr ≠ [] := by
  by_cases composed : ∃ inner, expr = comp.compose inner
  · obtain ⟨_, rfl⟩ := composed
    have several := (throughout_compose.mp tidy).1.several
    rw [parts_compose]
    rintro rfl
    cases several
  · simp [parts_plain (not_exists.mp composed)]

theorem normalize_alike (expr : ScopeExpression) : Alike (normalizeApplicationScope expr) (normalForm expr) := by
  induction expr using compositionInduction with
  | composed comp exprs ih =>
    have found := find?_alike comp ih
    obtain ⟨left, right⟩ := filter_alike comp ih
    rw [normalize_compose, normalForm_compose]
    cases decided : (((exprs.flatMap comp.parts).map normalForm).flatMap comp.parts).find?
        comp.absorbing with
    | some =>
      rw [combine_decided (found.trans decided), gather_decided decided]
      exact .inl rfl
    | none =>
      by_cases none : comp.remaining (exprs.flatMap comp.parts) = []
      · rw [none] at left right
        rw [combine_open (found.trans decided), gather_open decided, left, right]
        exact .inl rfl
      refine .inr ⟨combine_amounts (found.trans decided) ?_, gather_amounts decided ?_⟩
      · rw [left]
        simpa using none
      · obtain ⟨branch, among⟩ := exists_mem_of_ne_nil _ none
        obtain ⟨_, inside⟩ := exists_mem_of_ne_nil _ (parts_ne_nil comp (normalForm_tidy branch))
        rw [right]
        exact ne_nil_of_mem (mem_flatMap.mpr ⟨_, mem_map_of_mem among, inside⟩)
  | plain expr plain =>
    have fixed : _ ∧ _ ∧ Throughout Tidy expr ∧ _ := plain_fixed plain
    rw [fixed.1, fixed.2.1]
    exact .inl rfl

theorem gather_sole (comp : ScopeComposition) (tidy : Throughout Tidy expr) :
    (match deduplicateScopes (comp.parts expr) with
      | [] => comp.unit
      | [only] => only
      | several => comp.compose several) = expr := by
  by_cases composed : ∃ inner, expr = comp.compose inner
  · obtain ⟨inner, rfl⟩ := composed
    have keeps := (throughout_compose.mp tidy).1
    rw [parts_compose, deduplicateScopes_eq keeps.distinct]
    match inner, keeps.several with
    | _ :: _ :: _, _ => rfl
  · rw [parts_plain (not_exists.mp composed)]
    rfl

theorem undecided_iff : (branches.map normalizeApplicationScope).find? composition.absorbing = none ↔
    ¬ ∃ branch ∈ branches, composition.absorbing (normalForm branch) := by
  rw [find?_eq_none]
  constructor
  · rintro nothing ⟨branch, among, decides⟩
    refine nothing _ (mem_map_of_mem among) ?_
    rwa [((normalize_alike branch).neutral composition).2]
  intro nothing _ mapped decides
  obtain ⟨branch, among, rfl⟩ := mem_map.mp mapped
  rw [((normalize_alike branch).neutral composition).2] at decides
  exact nothing ⟨branch, among, decides⟩

theorem OnePass.normalize_eq (enough : OnePass expr) : normalizeApplicationScope expr = normalForm expr := by
  induction expr using compositionInduction with
  | composed comp exprs ih =>
    have alike : ∀ branch ∈ exprs.flatMap comp.parts,
        Alike (normalizeApplicationScope branch) (normalForm branch) := fun branch _ => normalize_alike branch
    have found := find?_alike comp alike
    obtain ⟨left, right⟩ := filter_alike comp alike
    rw [normalize_compose, normalForm_compose]
    cases decided : (((exprs.flatMap comp.parts).map normalForm).flatMap comp.parts).find?
        comp.absorbing with
    | some => rw [combine_decided (found.trans decided), gather_decided decided]
    | none =>
      obtain ⟨passes, each⟩ := (onePass_compose.mp enough).resolve_left (undecided_iff.mp (found.trans decided))
      have same : (comp.remaining (exprs.flatMap comp.parts)).map normalizeApplicationScope =
          (comp.remaining (exprs.flatMap comp.parts)).map normalForm := by
        refine map_congr_left fun branch among => ?_
        obtain ⟨member, amounts⟩ := mem_filter.mp among
        exact ih branch member (each branch member (by simpa using amounts))
      rw [combine_open (found.trans decided), gather_open decided, left, right, same]
      unfold Passes at passes
      generalize comp.remaining (exprs.flatMap comp.parts) = remaining at passes
      rcases passes with few | ⟨plain, differ⟩
      · match remaining with
        | [] => rfl
        | [branch] =>
          rw [map_singleton, flatMap_singleton, gather_sole comp (normalForm_tidy branch)]
        | _ :: _ :: _ => simp at few
      have flat : (remaining.map normalForm).flatMap comp.parts = remaining.map normalForm := by
        have each : ∀ form ∈ remaining.map normalForm, comp.parts form = [form] := by
          intro form mapped
          obtain ⟨branch, among, rfl⟩ := mem_map.mp mapped
          exact parts_plain (plain branch among)
        rw [flatMap_congr each, flatMap_singleton']
      have more : 1 < (deduplicateScopes (remaining.map normalForm)).length := by
        obtain ⟨_, first, _, second, differ⟩ := differ
        exact one_lt_deduplicateScopes.mpr ⟨_, mem_map_of_mem first, _, mem_map_of_mem second, differ⟩
      rw [flat]
      generalize remaining.map normalForm = normal at more ⊢
      match normal, more with
      | _ :: _ :: _, more =>
        dsimp only
        generalize deduplicateScopes _ = different at more
        match different, more with
        | _ :: _ :: _, _ => rfl
  | plain expr plain =>
    have fixed : _ ∧ _ ∧ Throughout Tidy expr ∧ _ := plain_fixed plain
    rw [fixed.1, fixed.2.1]

theorem onePass_of_normal (normal : Normal (normalizeApplicationScope expr)) : OnePass expr := by
  induction expr using compositionInduction with
  | composed comp exprs ih =>
    refine onePass_compose.mpr (or_iff_not_imp_left.mpr fun undecided => ?_)
    have alike : ∀ branch ∈ exprs.flatMap comp.parts,
        Alike (normalizeApplicationScope branch) (normalForm branch) := fun branch _ => normalize_alike branch
    obtain ⟨left, -⟩ := filter_alike comp alike
    rw [normalize_compose, combine_open (undecided_iff.mpr undecided), left] at normal
    have remains : ∀ branch ∈ exprs.flatMap comp.parts, ¬ comp.neutral (normalForm branch) →
        branch ∈ comp.remaining (exprs.flatMap comp.parts) :=
      fun branch among amounts => mem_filter.mpr ⟨among, by simpa using amounts⟩
    have inside : ∀ branch ∈ comp.remaining (exprs.flatMap comp.parts),
        branch ∈ exprs.flatMap comp.parts := fun branch among => (mem_filter.mp among).1
    unfold Passes
    generalize comp.remaining (exprs.flatMap comp.parts) = remaining at normal remains inside
    suffices enough : (remaining.length ≤ 1 ∨ (∀ branch ∈ remaining, ∀ inner, normalForm branch ≠ comp.compose inner) ∧
        ∃ one ∈ remaining, ∃ two ∈ remaining, normalForm one ≠ normalForm two) ∧
        ∀ branch ∈ remaining, OnePass branch from
      ⟨enough.1, fun branch among amounts => enough.2 branch (remains branch among amounts)⟩
    match remaining with
    | [] => exact ⟨.inl (by simp), nofun⟩
    | [only] =>
      have sole := ih only (inside only mem_cons_self) normal
      exact ⟨.inl (by simp), by simpa using sole⟩
    | one :: two :: rest =>
      obtain ⟨⟨several, others⟩, each⟩ := throughout_compose.mp normal
      have passes : ∀ branch ∈ one :: two :: rest, OnePass branch := fun branch among =>
        ih branch (inside branch among) (each _ (mem_deduplicateScopes.mpr (mem_map_of_mem among)))
      refine ⟨.inr ⟨fun branch among inner => ?_, ?_⟩, passes⟩
      · rw [← (passes branch among).normalize_eq]
        exact others _ (mem_deduplicateScopes.mpr (mem_map_of_mem among)) inner
      have some : 0 < (deduplicateScopes ((one :: two :: rest).map normalizeApplicationScope)).length :=
        length_pos_of_mem (mem_deduplicateScopes.mpr (mem_map_of_mem mem_cons_self))
      obtain ⟨_, first, _, second, differ⟩ := one_lt_deduplicateScopes.mp (lt_of_le_of_ne some (Ne.symm several))
      obtain ⟨branch, among, rfl⟩ := mem_map.mp first
      obtain ⟨branch', among', rfl⟩ := mem_map.mp second
      rw [(passes branch among).normalize_eq, (passes branch' among').normalize_eq] at differ
      exact ⟨branch, among, branch', among', differ⟩
  | plain expr plain =>
    have fixed : _ ∧ _ ∧ Throughout Tidy expr ∧ OnePass expr := plain_fixed plain
    exact fixed.2.2.2

/-- Normalization reaches a normal form, which it leaves as it is, exactly where one pass is enough. Expressions of that
kind whose branches are the same, flattened and without repetitions, are normalized to one expression. -/
theorem normalization_reaches_normal_form (expression : ScopeExpression) :
    ((normalizeApplicationScope (normalizeApplicationScope expression) = normalizeApplicationScope expression ∧
        Normal (normalizeApplicationScope expression)) ↔ OnePass expression) ∧
      ∀ other, OnePass expression → OnePass other → normalForm expression = normalForm other →
        normalizeApplicationScope expression = normalizeApplicationScope other := by
  refine ⟨⟨fun reached => onePass_of_normal reached.2, fun enough => ?_⟩, fun other one two same => ?_⟩
  · have tidy := normalForm_tidy expression
    rw [enough.normalize_eq]
    exact ⟨normal_fixed tidy, normal_of_tidy tidy⟩
  · rw [one.normalize_eq, two.normalize_eq, same]

/-- Of a repeated branch, a composition of that branch alone is left. -/
theorem repeated_branch_is_left_composed :
    ¬ (normalizeApplicationScope (normalizeApplicationScope (.and [.audience "ops", .audience "ops"])) =
        normalizeApplicationScope (.and [.audience "ops", .audience "ops"]) ∧
      Normal (normalizeApplicationScope (.and [.audience "ops", .audience "ops"]))) := by
  have once : normalizeApplicationScope (.and [.audience "ops", .audience "ops"]) = .and [.audience "ops"] := by
    decide +kernel
  rintro ⟨-, normal⟩
  rw [once] at normal
  simp [Normal, Throughout] at normal

end Applik8s.Authority
