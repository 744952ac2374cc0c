import Applik8s.Search.Interleavings

/-! The index predicates of the PostgreSQL runtime against the filter that both runtimes share. The predicates take
the equalities out of a comparison and let through what the filter accepts, so both runtimes answer alike; a candidate
list that is null they read as an empty one, the filter as none. -/
namespace Applik8s.Search
open Lib List
open Normalization (deterministic postgres)

/-- A value that is given in JSON. -/
def Value.plain : Value → Bool
  | .undefined => false
  | .date _ => false
  | _ => true

/-- A comparison over JSON values, with a list of candidates under `in`. -/
def Value.comparesPlain : Value → Bool
  | .object operations => operations.all fun operation =>
    match operation.2 with
    | .array candidates => candidates.all Value.plain
    | operand => operation.1 ≠ "in" && operand.plain
  | comparison => comparison.plain

def comparesPlain (conditions : Record Value) : Bool := conditions.all (·.2.comparesPlain)

theorem normalizations_plain (engine : Engine) (undated : ∀ instant, value ≠ .date instant) :
    (postgres engine).equality value = value ∧ (postgres engine).order value = value ∧
      deterministic.order value = value := by
  cases value with
  | date instant => exact absurd rfl (undated instant)
  | _ => exact ⟨rfl, rfl, rfl⟩

theorem plain_undated {value : Value} (plain : value.plain = true) (instant : Int) : value ≠ .date instant := by
  rintro rfl
  cases plain

theorem refutes_congr {ops : List (String × Value)}
    (alike : ∀ operand, Record.get ops name = some operand → fails operand = fails' operand) :
    refutes ops name fails = refutes ops name fails' := by
  unfold refutes
  split
  next operand found => exact alike operand found
  · rfl

theorem operand_of_plain (plain : (Value.object ops).comparesPlain = true)
    (found : Record.get ops name = some operand) : operand.plain = true ∧
      (name = "in" → ∃ cands, operand = .array cands ∧ ∀ value ∈ cands, value.plain = true) := by
  have here := all_eq_true.mp plain _ (Record.mem_of_get found)
  cases operand <;> simp_all [Value.plain]

/-- Over JSON values the two runtimes compare alike. -/
theorem matchesComparison_alike (undated : ∀ instant, actual ≠ .date instant)
    (plain : comparison.comparesPlain = true) : matchesComparison engine .deterministic actual comparison =
      matchesComparison engine (.postgres engine) actual comparison := by
  have alike : ∀ operand : Value, operand.plain = true →
      same .deterministic actual operand = same (.postgres engine) actual operand ∧
      compareValues engine deterministic.order actual operand =
        compareValues engine (postgres engine).order actual operand := by
    intro operand plain
    have here := normalizations_plain engine undated
    have there := normalizations_plain engine (plain_undated plain)
    refine ⟨?_, by simp [compareValues, here, there]⟩
    simp [same, here, there, deterministic]
  cases comparison with
  | object ops =>
    have compares : ∀ {name operand}, Record.get ops name = some operand →
        same .deterministic actual operand = same (.postgres engine) actual operand ∧
        compareValues engine deterministic.order actual operand =
          compareValues engine (postgres engine).order actual operand :=
      fun found => alike _ (operand_of_plain plain found).1
    unfold matchesComparison
    dsimp only
    congr 1
    refine congrArg₂ _ (congrArg₂ _ (congrArg₂ _ (congrArg₂ _ (congrArg₂ _ (congrArg₂ _ ?_ ?_) ?_) ?_) ?_) ?_) ?_ <;>
      refine refutes_congr fun operand found => ?_
    case refine_3 =>
      obtain ⟨cands, rfl, each⟩ := (operand_of_plain plain found).2 rfl
      have same : cands.any (same .deterministic actual) = cands.any (same (.postgres engine) actual) := by
        rw [Bool.eq_iff_iff, any_eq_true, any_eq_true]
        exact exists_congr fun value => and_congr_right fun among => by rw [(alike value (each value among)).1]
      exact congrArg not same
    all_goals simp [compares found]
  | _ =>
    refine (alike _ ?_).1
    exact plain

theorem undated_read (storable : Storable doc) (field : String) (instant : Int) : doc.read field ≠ .date instant := by
  unfold Fields.read
  cases found : doc.get field with
  | none => exact nofun
  | some held =>
    rintro rfl
    exact absurd (storable _ (Record.mem_of_get found)) (by simp [Value.storable])

theorem matchesWhere_alike (storable : Storable doc) (plain : comparesPlain conds = true) :
    matchesWhere engine .deterministic doc conds =
      matchesWhere engine (.postgres engine) doc conds := by
  simp only [comparesPlain, all_eq_true] at plain
  rw [Bool.eq_iff_iff]
  simp only [matchesWhere, all_eq_true]
  refine forall_congr' fun cond => forall_congr' fun among => ?_
  rw [matchesComparison_alike (undated_read storable _) (plain cond among)]

theorem lists_of_plain (plain : comparesPlain conds = true) : listsCandidates conds = true := by
  simp only [comparesPlain, listsCandidates, all_eq_true] at *
  intro cond among
  have here := plain cond among
  cases is : cond.2 with
  | object ops =>
    rw [is] at here
    cases found : Record.get ops "in" with
    | none => simp [found]
    | some =>
      obtain ⟨_, rfl, -⟩ := (operand_of_plain here found).2 rfl
      simp [found]
  | _ => rfl

theorem serializable_of_plain (plain : comparesPlain conds = true) : serializable conds = true := by
  simp only [comparesPlain, serializable, all_eq_true] at *
  intro cond among value indexed
  have here := plain cond among
  suffices value.plain = true by cases value <;> first | rfl | cases this
  cases is : cond.2 with
  | object ops =>
    rw [is] at here indexed
    unfold indexedEqualityValues at indexed
    dsimp only at indexed
    cases one : Record.get ops "eq" with
    | some =>
      rw [one] at indexed
      obtain rfl := mem_singleton.mp indexed
      exact (operand_of_plain here one).1
    | none =>
      rw [one] at indexed
      cases listed : Record.get ops "in" with
      | none => simp [listed] at indexed
      | some =>
        obtain ⟨_, rfl, each⟩ := (operand_of_plain here listed).2 rfl
        rw [listed] at indexed
        exact each value indexed
  | _ =>
    rw [is] at here indexed
    obtain rfl := mem_singleton.mp indexed
    exact here

section
variable {α β : Type} {compare compare' : α → α → Ordering} {items : List α}

theorem Consistent.then (first : Consistent compare items) (second : Consistent compare' items) :
    Consistent (fun left right => (compare left right).then (compare' left right)) items where
  refl a member := by simp [first.refl a member, second.refl a member]
  swap a one b two := by simp only [first.swap a one b two, second.swap a one b two, Ordering.swap_then]
  trans a one b two c three before after := by
    have through := first.trans a one b two c three
    have back := first.trans b two c three a one
    have forth := first.trans c three a one b two
    have tied := second.trans a one b two c three
    rw [first.swap a one c three, first.swap a one b two] at back
    rw [first.swap a one c three, first.swap b two c three] at forth
    cases one : compare a b <;> cases two : compare b c <;> cases three : compare a c <;> simp_all

theorem Consistent.reversed (consistent : Consistent compare items) :
    Consistent (fun left right => (compare left right).swap) items where
  refl a member := by simp [consistent.refl a member]
  swap a one b two := congrArg Ordering.swap (consistent.swap a one b two)
  trans a one b two c three before after := by
    rw [← consistent.swap a one b two] at before
    rw [← consistent.swap b two c three] at after
    rw [← consistent.swap a one c three]
    exact consistent.trans c three b two a one after before

variable {compare : β → β → Ordering}

theorem Consistent.along (consistent : Consistent compare (items.map key)) :
    Consistent (fun left right => compare (key left) (key right)) items :=
  ⟨forall_mem_map.mp consistent.refl, fun _ one _ two => consistent.swap _ (mem_map_of_mem one) _ (mem_map_of_mem two),
    fun _ one _ two _ three =>
      consistent.trans _ (mem_map_of_mem one) _ (mem_map_of_mem two) _ (mem_map_of_mem three)⟩

/-- A comparison that agrees with a consistent one on what it is used for is consistent. -/
theorem Consistent.over (consistent : Consistent compare' items)
    (agrees : ∀ a ∈ items, ∀ b ∈ items, compare (key a) (key b) = compare' a b) :
    Consistent compare (items.map key) := by
  refine ⟨?_, ?_, ?_⟩ <;> simp only [forall_mem_map]
  · exact fun a one => (agrees a one a one).trans (consistent.refl a one)
  · exact fun a one b two => by rw [agrees a one b two, agrees b two a one, consistent.swap a one b two]
  intro a one b two c three
  rw [agrees a one b two, agrees b two c three, agrees a one c three]
  exact consistent.trans a one b two c three

theorem eq_of_neither {order : Ordering} (before : order ≠ .gt) (after : order.swap ≠ .gt) : order = .eq := by
  cases order <;> simp_all

end

/-- Ids are ordered by `localeCompare`, and the values of each sort field by `<`, as those of one scalar type are. -/
structure Sortable (engine : Engine) (query : Query) (documents : Record (StoredDocument Fields)) : Prop where
  ids : Consistent engine.localeCompare (documents.map (·.1))
  apart : ∀ id ∈ documents.map (·.1), ∀ other ∈ documents.map (·.1), engine.localeCompare id other = .eq → id = other
  fields : ∀ sort ∈ query.order,
    Consistent (compareValues engine id) (documents.map fun entry => entry.2.document.read sort.field)
  unscored : engine.above engine.zero engine.zero = false

section
variable {engine : Engine} {database : Database} {opts : SearchOptions} {query : Query} {admission : Admission}

theorem compareSorts_consistent {docs : Record (StoredDocument Fields)}
    (fields : ∀ sort ∈ order, Consistent (compareValues engine id) (docs.map fun entry => entry.2.document.read sort.field))
    : Consistent (fun left right : String × StoredDocument Fields =>
      compareSorts engine ⟨id, id⟩ left.2.document right.2.document order) docs := by
  induction order with
  | nil => exact ⟨fun _ _ => rfl, fun _ _ _ _ => rfl, fun _ _ _ _ _ _ _ _ => nofun⟩
  | cons sort rest ih =>
    have first := (fields sort mem_cons_self).along
    have later := ih fun other member => fields other (mem_cons_of_mem _ member)
    obtain ⟨field, direction⟩ := sort
    cases direction with
    | ascending =>
      convert first.then later using 3 with left right
      rw [compareSorts]
      cases compareValues engine id (left.2.document.read field) (right.2.document.read field) <;> rfl
    | descending =>
      convert first.reversed.then later using 3 with left right
      rw [compareSorts]
      cases compareValues engine id (left.2.document.read field) (right.2.document.read field) <;> rfl

/-- Without a text, and over JSON documents, both runtimes order the rows by the sorts and then by id. -/
theorem compareSearchRows_unscored
    (plain : ∀ value, (∀ instant, value ≠ .date instant) → normalization.order value = value)
    (unscored : engine.above engine.zero engine.zero = false) (stored : Storable left.2.document)
    (stored' : Storable right.2.document) :
    compareSearchRows engine normalization order (row engine opts.fields none left)
        (row engine opts.fields none right) =
      (compareSorts engine ⟨id, id⟩ left.2.document right.2.document order).then
        (engine.localeCompare left.1 right.1) := by
  have sorts : compareSorts engine normalization left.2.document right.2.document order =
      compareSorts engine ⟨id, id⟩ left.2.document right.2.document order := by
    induction order with
    | nil => rfl
    | cons sort rest ih =>
      simp [compareSorts, compareValues, ih, plain _ (undated_read stored _), plain _ (undated_read stored' _), id]
  unfold compareSearchRows
  simp only [row, scoreDocument, compareScores, unscored, Bool.false_eq_true, if_false, ite_self, sorts]
  cases compareSorts engine ⟨id, id⟩ left.2.document right.2.document order <;> rfl

theorem sortedRows_alike
    (plain : ∀ value, (∀ instant, value ≠ .date instant) → provider.normalization.order value = value)
    (plain' : ∀ value, (∀ instant, value ≠ .date instant) → provider'.normalization.order value = value)
    (sortable : Sortable engine query docs) (stored : ∀ entry ∈ docs, Storable entry.2.document)
    (distinct : (docs.map (·.1)).Nodup) (inside : selected ⊆ docs)
    (perm : visible.Perm (selected.map (row engine opts.fields none))) :
    sortedRows provider' query visible = sortedRows provider query (selected.map (row engine opts.fields none)) := by
  have common := (compareSorts_consistent sortable.fields).then sortable.ids.along
  have alike : ∀ {normalization : Normalization},
      (∀ value, (∀ instant, value ≠ .date instant) → normalization.order value = value) →
      ∀ left ∈ docs, ∀ right ∈ docs,
        compareSearchRows engine normalization query.order (row engine opts.fields none left)
          (row engine opts.fields none right) = _ := fun plain left here right there =>
    compareSearchRows_unscored plain sortable.unscored (stored left here) (stored right there)
  have rows := (common.over (alike plain)).mono (map_subset _ inside)
  have rows' := ((common.over (alike plain')).mono (map_subset _ inside)).mono perm.subset
  have sorted := engine.sort_perm (compareSearchRows engine provider.normalization query.order)
    (selected.map (row engine opts.fields none))
  have sorted' := (engine.sort_perm (compareSearchRows engine provider'.normalization query.order) visible).trans perm
  refine List.Perm.eq_of_pairwise ?_ ((engine.sort_sorted _ _ rows').imp_of_mem ?_) (engine.sort_sorted _ _ rows)
    (sorted'.trans sorted.symm)
  · intro left right here there before after
    obtain ⟨one, chosen, rfl⟩ := mem_map.mp (sorted'.subset here)
    obtain ⟨two, chosen', rfl⟩ := mem_map.mp (sorted.subset there)
    rw [alike plain _ (inside chosen) _ (inside chosen')] at before
    rw [alike plain _ (inside chosen') _ (inside chosen), common.swap _ (inside chosen) _ (inside chosen')] at after
    have ids := sortable.apart _ (mem_map_of_mem (inside chosen)) _ (mem_map_of_mem (inside chosen'))
      (Ordering.then_eq_eq.mp (eq_of_neither before after)).2
    rw [inj_on_of_nodup_map distinct (inside chosen) (inside chosen') ids]
  · intro left right here there kept
    obtain ⟨_, chosen, rfl⟩ := mem_map.mp (sorted'.subset here)
    obtain ⟨_, chosen', rfl⟩ := mem_map.mp (sorted'.subset there)
    rwa [alike plain _ (inside chosen) _ (inside chosen'), ← alike plain' _ (inside chosen) _ (inside chosen')]

theorem bind_unit {first : Except Failure Unit} : (first >>= rest) = .ok () ↔ first = .ok () ∧ rest () = .ok () := by
  cases first <;> simp [bind, Except.bind]

theorem forM_unit {α : Type} {items : List α} {visit : α → Except Failure Unit} :
    items.forM visit = .ok () ↔ ∀ item ∈ items, visit item = .ok () := by
  induction items with
  | nil => simp [pure, Except.pure]
  | cons item rest ih =>
    change (visit item >>= fun _ => rest.forM visit) = _ ↔ _
    rw [bind_unit, ih, forall_mem_cons]

theorem validateField_unit :
    validateField fields unindexed unfilterable field = .ok () ↔ (fields.get field).any (·.kind.filterable) = true := by
  unfold validateField
  cases fields.get field <;> simp

/-- Both runtimes make the same checks, in another order. -/
theorem validates_alike : (deterministicProvider engine).validate opts query admission = .ok () ↔
      (postgresProvider engine db).validate opts query admission = .ok () := by
  simp only [deterministicProvider, postgresProvider, validateWhere, bind_unit, forM_unit, validateField_unit, forall_and,
    and_assoc]

/-- Two providers that accept a request and sort what they see alike answer it alike. -/
theorem search_alike
    (validates : provider.validate opts query admission = .ok () → provider'.validate opts query admission = .ok ())
    (sees : provider.visible opts view.documents query admission = .ok visible)
    (sees' : provider'.visible opts view.documents query admission = .ok visible')
    (sorted : sortedRows provider' query visible' = sortedRows provider query visible)
    (done : search provider sealing opts now query admission view cursor = .ok res) :
    search provider' sealing opts now query admission view cursor = .ok res := by
  unfold search at *
  obtain ⟨_, valid, done⟩ := bind_ok done
  obtain ⟨_, digested, done⟩ := bind_ok done
  obtain ⟨_, begins, done⟩ := bind_ok done
  obtain ⟨_, seen, done⟩ := bind_ok done
  cases sees.symm.trans seen
  unfold sortedRows at sorted
  simpa only [validates valid, digested, begins, sees', bind, Except.bind, sorted] using done

end

namespace Postgres

def createdAt (instant : Int) : Query where
  text := none
  conditions := some [("createdAt", .object [("in", .array [.string (plainEngine.toISOString instant)])])]
  facets := none
  orderBy := some (.one ⟨"createdAt", .descending⟩)
  limit := none

end Postgres
end Applik8s.Search
